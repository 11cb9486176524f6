import TsIngress.BasicLemmas
import TsIngress.Auth.Impl.Basic
import TsIngress.Remap.Impl.Path
import TsIngress.Util.Lemmas.Base64

/-!
This module contains the wire format of basic credentials, and what `auth_check_basic` makes of a header
that may be anything.
-/

def basicCredentials (hdr : Str) : Str :=
  (hdr.dropWhile (· ≠ 32)).dropWhile isspace

-- The tests that a header has to pass before it is decoded.
def ReachesDecoder (hdr : Str) : Prop :=
  32 ∈ hdr
    ∧
  7 ≤ hdr.length
    ∧
  hdr.take 6 = str "Basic "
    ∧
  basicCredentials hdr ≠ []
    ∧
  base64DecodeLen (basicCredentials hdr).length ≤ 255

instance : DecidablePred ReachesDecoder :=
  fun hdr => inferInstanceAs (Decidable (32 ∈ hdr ∧ 7 ≤ hdr.length ∧ hdr.take 6 = str "Basic "
    ∧ basicCredentials hdr ≠ [] ∧ base64DecodeLen (basicCredentials hdr).length ≤ 255))

def checkDecoded (env : Env) (users : Hash Str) (decoded : Int × List UInt8) : Int :=
  if decoded.1 < 3 then
    -1
  else
    match strcut 58 (cstr decoded.2) with
    | none => -1
    | some (user, pass) => if authCheckPassword env users user pass then 1 else 0

theorem authCheckBasic_eq (env : Env) (hdr : Str) {rp : RemapPath} {users : Hash Str}
    (htype : rp.rpAuthType = .basic) (husers : rp.rpUsers = some users)
    : authCheckBasic env hdr rp
        =
      if ReachesDecoder hdr then checkDecoded env users (base64Decode (basicCredentials hdr)) else -1 := by
  unfold authCheckBasic
  rw [husers, if_neg (by simp [htype])]
  dsimp only
  split
  . next h =>
    rw [if_neg]
    rintro ⟨h', -⟩
    exact h h'
  . split
    . next h =>
      rw [if_neg]
      rintro ⟨-, h', -⟩
      omega
    . split
      . next h =>
        rw [if_neg]
        rintro ⟨-, -, h', -⟩
        exact h h'
      . split
        . next h =>
          rw [if_neg]
          rintro ⟨-, -, -, h', -⟩
          exact h' h
        . split
          . next h =>
            rw [if_neg]
            rintro ⟨-, -, -, -, h'⟩
            exact absurd h' (by unfold basicCredentials; omega)
          . next h1 h2 h3 h4 h5 =>
            have hreaches : ReachesDecoder hdr := by
              refine ⟨not_not.mp h1, by omega, not_not.mp h3, h4, ?_⟩
              unfold basicCredentials
              omega
            rw [if_pos hreaches]
            rfl

theorem storeBuf_decoded {buf out : List UInt8} (h : out.length < buf.length)
    : ∃ rest,
        storeBuf (ClipBuffer.store buf 0 out) out.length [0] = .ok (cstr out ++ 0 :: rest) := by
  have hroom : out.length + [(0 : UInt8)].length ≤ (ClipBuffer.store buf 0 out).length := by
    rw [ClipBuffer.length_store (by omega), List.length_singleton]
    omega
  rw [storeBuf_eq hroom]
  have hstore : ClipBuffer.store (ClipBuffer.store buf 0 out) out.length [0]
      = out ++ 0 :: buf.drop (out.length + 1) := by
    have hout : 0 + out.length ≤ buf.length := by
      omega
    have hjoin : ClipBuffer.store (ClipBuffer.store buf 0 out) (0 + out.length) [0]
        = ClipBuffer.store buf 0 (out ++ [0]) := by
      exact RawBuffer.store_store hout
    rw [Nat.zero_add] at hjoin
    rw [hjoin]
    simp [ClipBuffer.store]
  rw [hstore]
  rcases exists_rest_of_cstr out with ⟨tail, hout, htail⟩
  cases tail with
  | nil =>
    rw [List.append_nil] at hout
    exact ⟨_, by rw [← hout]⟩
  | cons c tail =>
    rcases htail with htail | htail
    . cases htail
    . cases htail
      generalize buf.drop (out.length + 1) = more
      refine ⟨tail ++ 0 :: more, ?_⟩
      conv_lhs => rw [hout]
      simp

theorem store_colon (user pass rest : List UInt8)
    : ClipBuffer.store (user ++ 58 :: pass ++ 0 :: rest) user.length [0] = user ++ 0 :: (pass ++ 0 :: rest) := by
  simp [ClipBuffer.store]

theorem strings_of_colon {user pass : Str} (huser : 0 ∉ user) (hpass : 0 ∉ pass) (rest : List UInt8)
    : ∃ buf, storeBuf (user ++ 58 :: pass ++ 0 :: rest) user.length [0] = .ok buf
        ∧ strBuf buf = .ok user ∧ strBuf (buf.drop (user.length + 1)) = .ok pass := by
  have hroom : user.length + [(0 : UInt8)].length ≤ (user ++ 58 :: pass ++ 0 :: rest).length := by
    simp only [List.length_append, List.length_cons, List.length_nil]
    omega
  have hdrop : (user ++ 0 :: (pass ++ 0 :: rest)).drop (user.length + 1) = pass ++ 0 :: rest := by
    simp
  refine ⟨user ++ 0 :: (pass ++ 0 :: rest), ?_, strBuf_append huser _, ?_⟩
  . rw [storeBuf_eq hroom, store_colon]
  . rw [hdrop]
    exact strBuf_append hpass rest

theorem authCheckBasicBuf_eq (env : Env) {buf : List UInt8} (hbuf : buf.length = 256) (hdr : Str)
    (rp : RemapPath)
    : authCheckBasicBuf env buf hdr rp = .ok (authCheckBasic env hdr rp) := by
  unfold authCheckBasicBuf authCheckBasic
  by_cases htype : rp.rpAuthType ≠ .basic
  . rw [if_pos htype, if_pos htype]
  rw [if_neg htype, if_neg htype]
  cases rp.rpUsers with
  | none => rfl
  | some users =>
    dsimp only
    by_cases hspace : 32 ∉ hdr
    . rw [if_pos hspace, if_pos hspace]
    rw [if_neg hspace, if_neg hspace]
    by_cases hshort : hdr.length < 7
    . rw [if_pos hshort, if_pos hshort]
    rw [if_neg hshort, if_neg hshort]
    by_cases hscheme : hdr.take 6 ≠ str "Basic "
    . rw [if_pos hscheme, if_pos hscheme]
    rw [if_neg hscheme, if_neg hscheme]
    generalize (hdr.dropWhile (· ≠ 32)).dropWhile isspace = creds
    by_cases hnil : creds = []
    . rw [if_pos hnil, if_pos hnil]
    rw [if_neg hnil, if_neg hnil, hbuf]
    by_cases hlong : base64DecodeLen creds.length > 255
    . rw [if_pos hlong, if_pos hlong]
    rw [if_neg hlong, if_neg hlong]
    rcases base64Decode.bounds creds with ⟨hout, hret⟩
    have hdecode : base64DecodeBuf buf 0 creds
        = .ok ((base64Decode creds).1, ClipBuffer.store buf 0 (base64Decode creds).2) := by
      apply base64DecodeBuf_eq
      unfold base64DecodeLen at hlong
      omega
    rw [hdecode]
    simp only [bind, Except.bind]
    by_cases hfew : (base64Decode creds).1 < 3
    . rw [if_pos hfew, if_pos hfew]
      rfl
    rw [if_neg hfew, if_neg hfew]
    have hn : (base64Decode creds).1.toNat = (base64Decode creds).2.length := by
      omega
    have hroom : (base64Decode creds).2.length < buf.length := by
      unfold base64DecodeLen at hlong
      omega
    rcases storeBuf_decoded hroom with ⟨rest, hstore⟩
    rw [hn, hstore]
    dsimp only
    rw [strBuf_append (notMem_cstr _)]
    dsimp only
    cases hcut : strcut 58 (cstr (base64Decode creds).2) with
    | none =>
      rw [strcut_eq_none_iff] at hcut
      rw [if_pos hcut]
      rfl
    | some parts =>
      rcases parts with ⟨user, pass⟩
      rw [strcut_eq_some_iff] at hcut
      rcases hcut with ⟨htext, huser⟩
      have hnul := notMem_cstr (base64Decode creds).2
      rw [htext, List.mem_append, List.mem_cons, not_or, not_or] at hnul
      rcases strings_of_colon hnul.1 hnul.2.2 rest with ⟨strings, hcolon, huserBuf, hpassBuf⟩
      rw [htext, if_neg (by simp), takeWhile_append_of_notMem huser, hcolon]
      dsimp only
      rw [huserBuf, hpassBuf]
      rfl

def ValidUser (env : Env) (users : Hash Str) (user pass : Str) : Prop :=
  ∃ crypted, hashGet users user = some crypted ∧ env.cryptCheck pass crypted = true

theorem authCheckPassword_iff (env : Env) (users : Hash Str) (user pass : Str)
    : authCheckPassword env users user pass = true ↔ ValidUser env users user pass := by
  unfold authCheckPassword ValidUser
  cases hashGet users user with
  | none => simp
  | some crypted => simp

set_option maxRecDepth 2000 in
theorem isspace_b64char_ofNat : ∀ n : Fin 64, isspace (b64char (UInt8.ofNat n)) = false := by
  decide

theorem isspace_b64char {d : UInt8} (h : d &&& (0x3F : UInt8) = d) : isspace (b64char d) = false := by
  rcases exists_eq_ofNat_of_and h with ⟨n, rfl⟩
  exact isspace_b64char_ofNat n

theorem isspace_head_base64Encode (x : List UInt8) : ∀ c ∈ (base64Encode x).head?, isspace c = false := by
  intro c hc
  match x with
  | [] => cases hc
  | [a] =>
    cases hc
    exact isspace_b64char (b64group.d0_and a)
  | [a, _] =>
    cases hc
    exact isspace_b64char (b64group.d0_and a)
  | a :: _ :: _ :: _ =>
    cases hc
    exact isspace_b64char (b64group.d0_and a)

def basicHeader (spaces : Nat) (user pass : Str) : Str :=
  str "Basic " ++ List.replicate spaces 32 ++ base64Encode (user ++ 58 :: pass)

theorem basicCredentials_basicHeader (spaces : Nat) (user pass : Str)
    : basicCredentials (basicHeader spaces user pass) = base64Encode (user ++ 58 :: pass) := by
  have hscheme : str "Basic " = [66, 97, 115, 105, 99, 32] := by
    decide
  have hdrop : (basicHeader spaces user pass).dropWhile (· ≠ 32)
      = List.replicate (spaces + 1) 32 ++ base64Encode (user ++ 58 :: pass) := by
    unfold basicHeader
    rw [hscheme]
    rfl
  have hspaces : ∀ c ∈ List.replicate (spaces + 1) (32 : UInt8), isspace c = true := by
    intro c hc
    rw [List.eq_of_mem_replicate hc]
    rfl
  unfold basicCredentials
  rw [hdrop, List.dropWhile_append_of_pos hspaces]
  cases henc : base64Encode (user ++ 58 :: pass) with
  | nil => rfl
  | cons c rest =>
    apply List.dropWhile_cons_of_neg
    rw [isspace_head_base64Encode (user ++ 58 :: pass) c (by simp [henc])]
    simp

theorem reachesDecoder_basicHeader {spaces : Nat} {user pass : Str}
    (hlen : user.length + 1 + pass.length ≤ 255)
    : ReachesDecoder (basicHeader spaces user pass) := by
  have henc := length_base64Encode (user ++ 58 :: pass)
  rw [List.length_append, List.length_cons] at henc
  unfold base64EncodeLen at henc
  have hscheme : (str "Basic ").length = 6 := by
    decide
  refine ⟨?_, ?_, ?_, ?_, ?_⟩
  . unfold basicHeader
    rw [List.append_assoc, List.mem_append]
    left
    decide
  . unfold basicHeader
    rw [List.length_append, List.length_append, hscheme, henc]
    omega
  . unfold basicHeader
    rw [List.append_assoc, List.take_append_of_le_length (by omega), List.take_of_length_le (by omega)]
  . rw [basicCredentials_basicHeader]
    intro hnil
    rw [hnil, List.length_nil] at henc
    omega
  . rw [basicCredentials_basicHeader, henc]
    unfold base64DecodeLen
    omega

theorem authCheckBasic_basicHeader (env : Env) {rp : RemapPath} {users : Hash Str}
    (htype : rp.rpAuthType = .basic) (husers : rp.rpUsers = some users) (spaces : Nat) {user pass : Str}
    (huser : 58 ∉ user) (huser0 : 0 ∉ user) (hpass0 : 0 ∉ pass)
    (hlow : 3 ≤ user.length + 1 + pass.length) (hhigh : user.length + 1 + pass.length ≤ 255)
    : authCheckBasic env (basicHeader spaces user pass) rp
        =
      if authCheckPassword env users user pass then 1 else 0 := by
  have hnul : 0 ∉ user ++ 58 :: pass := by
    simp [huser0, hpass0]
  rw [authCheckBasic_eq env _ htype husers, if_pos (reachesDecoder_basicHeader hhigh),
    basicCredentials_basicHeader, base64Decode_base64Encode]
  unfold checkDecoded
  rw [if_neg, cstr_of_notMem hnul, strcut_append 58 user pass huser]
  simp only [List.length_append, List.length_cons]
  omega

theorem inv_of_authCheckBasic {env : Env} {hdr : Str} {rp : RemapPath} {users : Hash Str}
    (htype : rp.rpAuthType = .basic) (husers : rp.rpUsers = some users)
    (h : authCheckBasic env hdr rp = 1)
    : ∃ user pass rest,
        ValidUser env users user pass
          ∧
        base64Decode (basicCredentials hdr)
          = (((user ++ 58 :: pass ++ rest).length : Int), user ++ 58 :: pass ++ rest)
          ∧
        (rest = [] ∨ rest.head? = some 0) := by
  rw [authCheckBasic_eq env hdr htype husers] at h
  split at h
  . unfold checkDecoded at h
    split at h
    . cases h
    . next hn =>
      split at h
      . cases h
      . next user pass hcut =>
        split at h
        . next hvalid =>
          rw [strcut_eq_some_iff] at hcut
          rcases exists_rest_of_cstr (base64Decode (basicCredentials hdr)).2 with ⟨rest, hbuf, hrest⟩
          rw [hcut.1] at hbuf
          refine ⟨user, pass, rest, (authCheckPassword_iff env users user pass).mp hvalid, ?_, hrest⟩
          rcases (base64Decode.bounds (basicCredentials hdr)).2 with hret | hret
          . omega
          . rw [← hbuf]
            exact Prod.ext hret rfl
        . cases h
  . cases h

/--
Credentials that fit the buffer are judged by the table of users. Whatever the header is, it is let in
only with credentials from the table, and no store or read leaves the buffer.
-/
theorem authCheckBasic_wireFormat (env : Env) (rp : RemapPath) (users : Hash Str)
    (htype : rp.rpAuthType = .basic) (husers : rp.rpUsers = some users)
    : (∀ (spaces : Nat) (user pass : Str),
        58 ∉ user →
        0 ∉ user →
        0 ∉ pass →
        3 ≤ user.length + 1 + pass.length →
        user.length + 1 + pass.length ≤ 255 →
        (ValidUser env users user pass → authCheckBasic env (basicHeader spaces user pass) rp = 1)
          ∧
        (¬ ValidUser env users user pass → authCheckBasic env (basicHeader spaces user pass) rp = 0))
        ∧
      (∀ hdr : Str,
        authCheckBasic env hdr rp = 1 →
        ∃ user pass rest,
          ValidUser env users user pass
            ∧
          base64Decode (basicCredentials hdr)
            = (((user ++ 58 :: pass ++ rest).length : Int), user ++ 58 :: pass ++ rest)
            ∧
          (rest = [] ∨ rest.head? = some 0))
        ∧
      ∀ (hdr : Str) (buf : List UInt8),
        buf.length = 256 →
        authCheckBasicBuf env buf hdr rp = .ok (authCheckBasic env hdr rp) := by
  refine ⟨?_, ?_, ?_⟩
  . intro spaces user pass huser huser0 hpass0 hlow hhigh
    rw [authCheckBasic_basicHeader env htype husers spaces huser huser0 hpass0 hlow hhigh]
    constructor
    . intro hvalid
      rw [if_pos]
      rw [authCheckPassword_iff]
      exact hvalid
    . intro hvalid
      rw [if_neg]
      rw [authCheckPassword_iff]
      exact hvalid
  . intro hdr h
    exact inv_of_authCheckBasic htype husers h
  . intro hdr buf hbuf
    exact authCheckBasicBuf_eq env hbuf hdr rp

def plainUsers : Hash Str :=
  hashSet (hashNew 127) (str "u") (str "\x7bPLAIN\x7dp")

def plainUsersPath : RemapPath :=
  { remapPathDefault with
    rpAuthType := .basic
    rpUsers := some plainUsers }

theorem authCheckBasic_wireFormat_plainUsers
    : authCheckBasic plainEnv (basicHeader 1 (str "u") (str "p")) plainUsersPath = 1 := by
  have hvalid : ValidUser plainEnv plainUsers (str "u") (str "p") := by
    refine ⟨str "\x7bPLAIN\x7dp", ?_, by decide⟩
    apply ChainTable.get_set_self
  apply ((authCheckBasic_wireFormat plainEnv plainUsersPath plainUsers rfl rfl).1 1 (str "u") (str "p") _ _ _ _
    _).1 hvalid
  all_goals decide
