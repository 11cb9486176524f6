import TsIngress.Lib.Fields
import TsIngress.Lib.TrailStrip
import TsIngress.Remap.Lemmas.Annotate
import TsIngress.Tsapi.Impl.Config

/-!
This module contains the loop that strips line ends off the passwords of a password file and off the token of
the service account, and when it stays inside of what it strips.
-/

open TrailStrip

def isLineEnd (c : UInt8) : Bool :=
  c == 13 || c == 10 || c == 0

theorem isLineEnd_eq_false_iff {c : UInt8} (h : c ≠ 0) : isLineEnd c = false ↔ ¬ (c = 13 ∨ c = 10) := by
  simp [isLineEnd, h]

section

variable {f : Str → Result Str} {e : Fault} (hnil : f [] = .error e)
  (hconcat : ∀ xs x, f (xs ++ [x]) = if x = 13 ∨ x = 10 then f xs else .ok (xs ++ [x]))

include hconcat

theorem strip_eq_of_safe {front : UInt8} {s : Str} (hs : 0 ∉ s) (h : Safe isLineEnd 0 ⟨front, s⟩)
    : f s = .ok (s.rdropWhile isLineEnd) := by
  induction s using List.reverseRecOn with
  | nil => exact absurd h (not_safe_nil front)
  | append_singleton xs x ih =>
    simp only [List.mem_append, List.mem_singleton, not_or] at hs
    have hx := isLineEnd_eq_false_iff (Ne.symm hs.2)
    rw [hconcat]
    cases hend : isLineEnd x with
    | true =>
      rw [safe_concat_of_true front xs hend] at h
      rw [hend, Bool.true_eq_false, false_iff, not_not] at hx
      rw [if_pos hx, List.rdropWhile_concat_pos isLineEnd xs x hend]
      exact ih hs.1 h
    | false =>
      rw [if_neg (hx.mp hend), List.rdropWhile_concat_neg isLineEnd xs x (by simp [hend])]

include hnil

theorem strip_eq_of_not_safe {front : UInt8} {s : Str} (hs : 0 ∉ s) (h : ¬ Safe isLineEnd 0 ⟨front, s⟩)
    : f s = .error e := by
  induction s using List.reverseRecOn with
  | nil => exact hnil
  | append_singleton xs x ih =>
    simp only [List.mem_append, List.mem_singleton, not_or] at hs
    have hx := isLineEnd_eq_false_iff (Ne.symm hs.2)
    cases hend : isLineEnd x with
    | true =>
      rw [safe_concat_of_true front xs hend] at h
      rw [hend, Bool.true_eq_false, false_iff, not_not] at hx
      rw [hconcat, if_pos hx]
      exact ih hs.1 h
    | false => exact absurd (safe_concat_of_false front xs hend) h

theorem strip_returns_iff (front : UInt8) {s : Str} (hs : 0 ∉ s)
    : Except.Returns (f s) ↔ Safe isLineEnd 0 ⟨front, s⟩ := by
  constructor
  . rintro ⟨r, hok⟩
    by_contra hnot
    rw [strip_eq_of_not_safe hnil hconcat hs hnot] at hok
    cases hok
  . intro hsafe
    exact ⟨_, strip_eq_of_safe hconcat hs hsafe⟩

end

theorem stripNewlines_concat (xs : Str) (x : UInt8)
    : stripNewlines (xs ++ [x]) = if x = 13 ∨ x = 10 then stripNewlines xs else .ok (xs ++ [x]) := by
  unfold stripNewlines
  rw [List.reverse_concat, stripNewlines.go]
  simp

theorem stripToken_concat (xs : Str) (x : UInt8)
    : stripToken (xs ++ [x]) = if x = 13 ∨ x = 10 then stripToken xs else .ok (xs ++ [x]) := by
  unfold stripToken
  rw [List.reverse_concat, stripToken.go]
  simp

theorem notMem_nul_passwordLines {se : Secret} {line : Str} (h : line ∈ passwordLines se) : 0 ∉ line := by
  unfold passwordLines at h
  split at h
  . cases h
  . split at h
    . cases h
    . intro hzero
      exact notMem_cstr _ (Fields.mem_of_mem_field h hzero)

theorem safe_password_iff {se : Secret} {line user password : Str} (hline : line ∈ passwordLines se)
    (hfield : passwordField line = some (user, password))
    : Safe isLineEnd 0 ⟨0, password⟩ ↔ ¬ EmptyPassword line := by
  have hmem := mem_of_mem_passwordField hfield
  have hzero : 0 ∉ password := by
    intro hzero
    exact notMem_nul_passwordLines hline (hmem 0 hzero)
  have hreturns : Except.Returns (stripNewlines password) ↔ password ≠ [] := by
    apply stripNewlines_returns_iff
    intro c hc
    exact notMem_passwordLines hline c (hmem c hc)
  rw [← strip_returns_iff rfl stripNewlines_concat 0 hzero, hreturns, emptyPassword_iff, hfield]
  simp

theorem safe_token_iff (front : UInt8) (line : List UInt8)
    : Safe isLineEnd 0 ⟨front, cstr line⟩ ↔ ∃ c ∈ cstr line, ¬ (c = 13 ∨ c = 10) := by
  rw [safe_iff]
  constructor
  . rintro ⟨c, hc, hend⟩
    have hzero : c ≠ 0 := by
      rintro rfl
      exact notMem_cstr line hc
    exact ⟨c, hc, (isLineEnd_eq_false_iff hzero).mp hend⟩
  . rintro ⟨c, hc, hend⟩
    have hzero : c ≠ 0 := by
      rintro rfl
      exact notMem_cstr line hc
    exact ⟨c, hc, (isLineEnd_eq_false_iff hzero).mpr hend⟩

theorem loadServiceAccount_returns {ps : Process}
    (h : ∀ line rest, (ps.fopen saTokenFile).bind (fgets 2048) = some (line, rest) →
      Safe isLineEnd 0 ⟨0, cstr line⟩) (cfg : LoadedConfig)
    : Except.Returns (loadServiceAccount ps cfg) := by
  unfold loadServiceAccount
  cases hline : (ps.fopen saTokenFile).bind (fgets 2048) with
  | none => exact Except.Returns.ok _
  | some read =>
    rcases read with ⟨line, rest⟩
    dsimp only
    apply Except.Returns.bind
    . rw [strip_returns_iff rfl stripToken_concat 0 (notMem_cstr line)]
      exact h line rest hline
    . intro token _
      split
      . exact Except.Returns.ok _
      . exact Except.Returns.ok _

theorem k8sConfigLoad_returns {ps : Process} {file : Option Str}
    (h : ∀ cfg, k8sConfigLoadFile ps file = .ok cfg → Except.Returns (loadServiceAccount ps cfg))
    : Except.Returns (k8sConfigLoad ps file) := by
  unfold k8sConfigLoad
  cases hfile : k8sConfigLoadFile ps file with
  | error e => exact Except.Returns.ok _
  | ok cfg =>
    apply Except.Returns.bind (h cfg hfile)
    intro cfg _
    exact Except.Returns.ok _

def PasswordsStripInside (users : Hash Str) (se : Secret) : Prop :=
  Except.Returns (remapPathAddUsers users se)
    ∧
  ∀ line ∈ passwordLines se, ∀ user password, passwordField line = some (user, password) →
    Safe isLineEnd 0 ⟨0, password⟩

def TokenLine (ps : Process) (file : Option Str) (line : Str) : Prop :=
  (∃ cfg, k8sConfigLoadFile ps file = .ok cfg)
    ∧
  ∃ rest, (ps.fopen saTokenFile).bind (fgets 2048) = some (line, rest)

def TokenStripsInside (ps : Process) (file : Option Str) : Prop :=
  Except.Returns (k8sConfigLoad ps file)
    ∧
  ∀ line, TokenLine ps file line → ∀ front, Safe isLineEnd 0 ⟨front, cstr line⟩

theorem passwordsStripInside_iff (users : Hash Str) (se : Secret)
    : PasswordsStripInside users se ↔ ∀ line ∈ passwordLines se, ¬ EmptyPassword line := by
  unfold PasswordsStripInside
  rw [remapPathAddUsers_returns_iff]
  constructor
  . intro h
    exact h.1
  . intro h
    refine ⟨h, ?_⟩
    intro line hline user password hfield
    exact (safe_password_iff hline hfield).mpr (h line hline)

theorem tokenStripsInside_iff (ps : Process) (file : Option Str)
    : TokenStripsInside ps file
        ↔
      ∀ line, TokenLine ps file line → ∃ c ∈ cstr line, ¬ (c = 13 ∨ c = 10) := by
  unfold TokenStripsInside
  constructor
  . intro h line hline
    exact (safe_token_iff 0 line).mp (h.2 line hline 0)
  . intro h
    constructor
    . apply k8sConfigLoad_returns
      intro cfg hfile
      apply loadServiceAccount_returns
      intro line rest hline
      exact (safe_token_iff 0 line).mpr (h line ⟨⟨cfg, hfile⟩, rest, hline⟩)
    . intro line hline front
      exact (safe_token_iff front line).mpr (h line hline)

/--
Both loops stay inside of what they strip exactly if no line of the password file names a user without a
password, and the line of the token has something else than line ends in it.
-/
theorem lineEnds_strip_inside_iff (users : Hash Str) (se : Secret) (ps : Process) (file : Option Str)
    : PasswordsStripInside users se ∧ TokenStripsInside ps file
        ↔
      (∀ line ∈ passwordLines se, ¬ EmptyPassword line)
        ∧
      ∀ line, TokenLine ps file line → ∃ c ∈ cstr line, ¬ (c = 13 ∨ c = 10) := by
  rw [passwordsStripInside_iff, tokenStripsInside_iff]

def emptyProcess : Process where
  fopen := fun _ => none
  stat := fun _ => false
  getenv := fun _ => none
  tsConfigDirGet := str "/etc/trafficserver"

theorem not_lineEnds_strip_inside
    : ¬ ∀ (users : Hash Str) (se : Secret) (ps : Process) (file : Option Str),
        PasswordsStripInside users se ∧ TokenStripsInside ps file := by
  intro hstrips
  have hinside := (hstrips (hashNew 127) secretWithoutPassword emptyProcess none).1
  rw [passwordsStripInside_iff, passwordLines_secretWithoutPassword] at hinside
  apply hinside (str "x:") (by simp)
  rw [emptyPassword_iff]
  exact ⟨str "x", by decide⟩
