import TsIngress.BasicLemmas
import TsIngress.Auth.Lemmas.Address
import TsIngress.Remap.Lemmas.Annotate
import TsIngress.Remap.Lemmas.Auth

/-!
This module contains the meaning of the `whitelist-source-range` annotation and what `rr_check_auth`
makes of it.
-/

open WireBits

def SockAddr.width : SockAddr → Nat
  | .inet _ => 32
  | .inet6 _ => 128
  | .other => 0

def InNetwork (env : Env) (addr : SockAddr) (ip : Str) (n : Int) : Prop :=
  0 ≤ n ∧ n ≤ addr.width
    ∧
  match addr with
  | .inet a =>
    ∃ net, env.inetPton4 ip = some net
      ∧ AgreeOn n.toNat (inAddrBytes env.endian a) (inAddrBytes env.endian net)
  | .inet6 a => ∃ net, env.inetPton6 ip = some net ∧ AgreeOn n.toNat a.s6Addr net.s6Addr
  | .other => False

def IsDecimal (s : Str) : Prop :=
  s ≠ [] ∧ ∀ c ∈ s, isdigit c

-- A comma separated list of `ip` or `ip/len` lists an address when one of these networks holds it.
def ListsAddress (env : Env) (value : Str) (addr : SockAddr) : Prop :=
  ∃ item ∈ strtok (str ",") value,
    (47 ∉ item ∧ InNetwork env addr item addr.width)
      ∨
    (∃ ip len, item = ip ++ 47 :: len ∧ 47 ∉ ip ∧ IsDecimal len ∧ InNetwork env addr ip (digitsValue len))

-- An item with something else than a prefix length behind the slash, of which `atoi` makes one.
def Misread (env : Env) (value : Str) (addr : SockAddr) : Prop :=
  ∃ item ∈ strtok (str ",") value, ∃ ip len,
    item = ip ++ 47 :: len ∧ 47 ∉ ip
      ∧
    ¬ (IsDecimal len ∧ digitsValue len ≤ addr.width)
      ∧
    InNetwork env addr ip (atoi len)

def ItemMatches (env : Env) (addr : SockAddr) (item : Str) : Prop :=
  (47 ∉ item ∧ InNetwork env addr item addr.width)
    ∨
  (∃ ip len, item = ip ++ 47 :: len ∧ 47 ∉ ip ∧ InNetwork env addr ip (atoi len))

theorem mem_remapPathGetAddresses_iff (env : Env) (value : Str) (rad : RemapAuthAddr)
    : rad ∈ remapPathGetAddresses env value
        ↔
      ∃ item ∈ strtok (str ",") value, remapPathGetAddress env item = some rad := by
  have hfold : ∀ (items : List Str) (list : List RemapAuthAddr),
      items.foldl (remapPathPushAddress env) list
        = (items.filterMap (remapPathGetAddress env)).reverse ++ list := by
    intro items
    induction items with
    | nil =>
      intro list
      rfl
    | cons item items ih =>
      intro list
      rw [List.foldl_cons, ih]
      cases h : remapPathGetAddress env item <;> simp [h, remapPathPushAddress]
  have hlist : remapPathGetAddresses env value
      = ((strtok (str ",") value).filterMap (remapPathGetAddress env)).reverse ++ [] :=
    hfold _ _
  rw [hlist]
  simp

def radMatches (env : Env) (addr : SockAddr) (rad : RemapAuthAddr) : Bool :=
  match addr, rad.raAddr with
  | .inet ip, .v4 net => ipv4InNetwork env.endian ip net rad.raPrefixLength
  | .inet6 ip, .v6 net => ipv6InNetwork env.endian ip net rad.raPrefixLength
  | _, _ => false

theorem authCheckAddress_eq_any (env : Env) (addr : SockAddr) (rp : RemapPath)
    : authCheckAddress env addr rp = rp.rpAuthAddrList.any (radMatches env addr) := by
  cases addr with
  | inet ip =>
    dsimp only [authCheckAddress]
    congr 1
    funext rad
    unfold radMatches
    cases rad.raAddr <;> rfl
  | inet6 ip =>
    dsimp only [authCheckAddress]
    congr 1
    funext rad
    unfold radMatches
    cases rad.raAddr <;> rfl
  | other => simp [authCheckAddress, radMatches]

theorem radMatches_iff {env : Env} {addr : SockAddr} {ip : Str} {n : Option Int} {rad : RemapAuthAddr}
    (h : remapAuthAddr env ip n = some rad)
    : radMatches env addr rad ↔ InNetwork env addr ip (n.getD addr.width) := by
  unfold remapAuthAddr at h
  unfold InNetwork
  cases h6 : env.inetPton6 ip with
  | some net =>
    have h4 := env.inetPton_disjoint ip (by simp [h6])
    rw [h6] at h
    cases h
    cases addr with
    | inet a => simp [radMatches, h4]
    | inet6 a => simp [radMatches, ipv6InNetwork_iff, SockAddr.width]
    | other => simp [radMatches]
  | none =>
    rw [h6] at h
    cases h4 : env.inetPton4 ip with
    | some net =>
      rw [h4] at h
      cases h
      cases addr with
      | inet a => simp [radMatches, ipv4InNetwork_iff, SockAddr.width]
      | inet6 a => simp [radMatches]
      | other => simp [radMatches]
    | none =>
      rw [h4] at h
      cases h

def Readable (env : Env) (ip : Str) : Prop :=
  (env.inetPton4 ip).isSome ∨ (env.inetPton6 ip).isSome

theorem remapAuthAddr_isSome_iff (env : Env) (ip : Str) (n : Option Int)
    : (remapAuthAddr env ip n).isSome ↔ Readable env ip := by
  unfold remapAuthAddr Readable
  cases env.inetPton6 ip with
  | some net => simp
  | none => cases env.inetPton4 ip <;> simp

theorem InNetwork.readable {env : Env} {addr : SockAddr} {ip : Str} {n : Int}
    (h : InNetwork env addr ip n)
    : Readable env ip := by
  rcases h with ⟨-, -, h⟩
  unfold Readable
  cases addr with
  | inet a =>
    rcases h with ⟨net, hnet, -⟩
    simp [hnet]
  | inet6 a =>
    rcases h with ⟨net, hnet, -⟩
    simp [hnet]
  | other => cases h

theorem item_cases (item : Str)
    : (47 ∉ item ∧ strcut 47 item = none)
        ∨
      (∃ ip len, item = ip ++ 47 :: len ∧ 47 ∉ ip ∧ strcut 47 item = some (ip, len)) := by
  cases h : strcut 47 item with
  | none =>
    rw [strcut_eq_none_iff] at h
    exact .inl ⟨h, rfl⟩
  | some p =>
    rcases p with ⟨ip, len⟩
    have hitem := (strcut_eq_some_iff 47 item ip len).mp h
    exact .inr ⟨ip, len, hitem.1, hitem.2, rfl⟩

theorem itemMatches_iff (env : Env) (addr : SockAddr) (item : Str)
    : ItemMatches env addr item
        ↔
      ∃ rad, remapPathGetAddress env item = some rad ∧ radMatches env addr rad := by
  have hexists : ∀ (ip : Str) (n : Option Int),
      (∃ rad, remapAuthAddr env ip n = some rad ∧ radMatches env addr rad)
        ↔ InNetwork env addr ip (n.getD addr.width) := by
    intro ip n
    constructor
    . rintro ⟨rad, hrad, hmatch⟩
      exact (radMatches_iff hrad).mp hmatch
    . intro h
      have hsome := (remapAuthAddr_isSome_iff env ip n).mpr h.readable
      rw [Option.isSome_iff_exists] at hsome
      rcases hsome with ⟨rad, hrad⟩
      exact ⟨rad, hrad, (radMatches_iff hrad).mpr h⟩
  unfold ItemMatches remapPathGetAddress
  rcases item_cases item with ⟨hno, hcut⟩ | ⟨ip, len, hitem, hip, hcut⟩
  . rw [hcut]
    dsimp only
    rw [hexists]
    constructor
    . rintro (⟨-, h⟩ | ⟨ip, len, rfl, -⟩)
      . exact h
      . simp at hno
    . intro h
      exact .inl ⟨hno, h⟩
  . rw [hcut]
    dsimp only
    rw [hexists, Option.getD_some]
    constructor
    . rintro (⟨hno, -⟩ | ⟨ip', len', hitem', hip', h⟩)
      . simp [hitem] at hno
      . have hcut' := strcut_append 47 ip' len' hip'
        rw [← hitem', hcut] at hcut'
        cases hcut'
        exact h
    . intro h
      exact .inr ⟨ip, len, hitem, hip, h⟩

theorem exists_itemMatches_iff (env : Env) (value : Str) (addr : SockAddr)
    (haddr : addr.width ≤ 128)
    : (∃ item ∈ strtok (str ",") value, ItemMatches env addr item)
        ↔
      ListsAddress env value addr ∨ Misread env value addr := by
  constructor
  . rintro ⟨item, hitem, ⟨hno, h⟩ | ⟨ip, len, heq, hip, h⟩⟩
    . exact .inl ⟨item, hitem, .inl ⟨hno, h⟩⟩
    . by_cases hlen : IsDecimal len ∧ digitsValue len ≤ addr.width
      . left
        have hatoi := atoi_eq_digitsValue hlen.1.2 (by omega)
        exact ⟨item, hitem, .inr ⟨ip, len, heq, hip, hlen.1, hatoi ▸ h⟩⟩
      . exact .inr ⟨item, hitem, ip, len, heq, hip, hlen, h⟩
  . rintro (⟨item, hitem, ⟨hno, h⟩ | ⟨ip, len, heq, hip, hlen, h⟩⟩ | ⟨item, hitem, ip, len, heq, hip, -, h⟩)
    . exact ⟨item, hitem, .inl ⟨hno, h⟩⟩
    . have hle := h.2.1
      have hatoi := atoi_eq_digitsValue hlen.2 (by omega)
      exact ⟨item, hitem, .inr ⟨ip, len, heq, hip, hatoi ▸ h⟩⟩
    . exact ⟨item, hitem, .inr ⟨ip, len, heq, hip, h⟩⟩

theorem SockAddr.width_le (addr : SockAddr) : addr.width ≤ 128 := by
  cases addr <;> simp [SockAddr.width]

theorem authCheckAddress_iff {env : Env} {value : Str} {rp : RemapPath} (addr : SockAddr)
    (h : rp.rpAuthAddrList = remapPathGetAddresses env value)
    : authCheckAddress env addr rp ↔ ListsAddress env value addr ∨ Misread env value addr := by
  rw [authCheckAddress_eq_any, h, List.any_eq_true, ← exists_itemMatches_iff env value addr addr.width_le]
  simp only [mem_remapPathGetAddresses_iff, itemMatches_iff]
  constructor
  . rintro ⟨rad, ⟨item, hitem, hrad⟩, hmatch⟩
    exact ⟨item, hitem, rad, hrad, hmatch⟩
  . rintro ⟨item, hitem, rad, hrad, hmatch⟩
    exact ⟨rad, ⟨item, hitem, hrad⟩, hmatch⟩

/--
An address is let in by a list exactly when a well-formed item lists it, unless the only network it lies
in is one of an item that has no prefix length behind its slash.
-/
theorem authCheckAddress_wellFormed_iff (env : Env) (s : Str) (addr : SockAddr) (rp : RemapPath)
    : (authCheckAddress env addr { rp with rpAuthAddrList := remapPathGetAddresses env s } = true
          ↔
        ListsAddress env s addr)
        ↔
      ListsAddress env s addr ∨ ¬ Misread env s addr := by
  rw [authCheckAddress_iff addr rfl]
  constructor
  . intro h
    by_cases hmisread : Misread env s addr
    . left
      apply h.mp
      right
      exact hmisread
    . right
      exact hmisread
  . intro h
    constructor
    . rintro (hlists | hmisread)
      . exact hlists
      . rcases h with hlists | hno
        . exact hlists
        . exact absurd hmisread hno
    . intro hlists
      left
      exact hlists

-- A prefix length that is no number is read as zero, which every address agrees with.
theorem not_authCheckAddress_wellFormed
    : ¬ ∀ (env : Env) (s : Str) (addr : SockAddr) (rp : RemapPath),
        authCheckAddress env addr { rp with rpAuthAddrList := remapPathGetAddresses env s } = true
          ↔
        ListsAddress env s addr := by
  intro hwellFormed
  have hin := (hwellFormed plainEnv (str "10.0.0.0/abc") (.inet 0x0100007F) remapPathDefault).mp (by decide)
  have hitems : strtok (str ",") (str "10.0.0.0/abc") = [str "10.0.0.0/abc"] := by
    decide
  rcases hin with ⟨item, hitem, hnet⟩
  rw [hitems, List.mem_singleton] at hitem
  subst hitem
  rcases hnet with ⟨hno, -⟩ | ⟨ip, len, heq, hip, hlen, -⟩
  . revert hno
    decide
  . have hcut := strcut_append 47 ip len hip
    rw [← heq] at hcut
    have hlen' : some (str "10.0.0.0", str "abc") = some (ip, len) := by
      rw [← hcut]
      decide
    cases hlen'
    have hdigit := hlen.2 97 (by decide)
    revert hdigit
    decide

def Usable (env : Env) (value : Str) : Prop :=
  ∃ item ∈ strtok (str ",") value, Readable env (item.takeWhile (· ≠ 47))

theorem remapPathGetAddress_isSome_iff (env : Env) (item : Str)
    : (remapPathGetAddress env item).isSome ↔ Readable env (item.takeWhile (· ≠ 47)) := by
  unfold remapPathGetAddress
  rcases item_cases item with ⟨hno, hcut⟩ | ⟨ip, len, hitem, hip, hcut⟩
  . rw [hcut, takeWhile_of_notMem hno]
    exact remapAuthAddr_isSome_iff env item none
  . have htake : item.takeWhile (· ≠ 47) = ip := by
      unfold strcut at hcut
      split at hcut
      . cases hcut
        rfl
      . cases hcut
    rw [hcut, htake]
    exact remapAuthAddr_isSome_iff env ip _

theorem remapPathGetAddresses_eq_nil_iff (env : Env) (value : Str)
    : remapPathGetAddresses env value = [] ↔ ¬ Usable env value := by
  unfold Usable
  simp only [← remapPathGetAddress_isSome_iff, Option.isSome_iff_exists]
  rw [List.eq_nil_iff_forall_not_mem]
  simp only [mem_remapPathGetAddresses_iff]
  constructor
  . rintro h ⟨item, hitem, rad, hrad⟩
    exact h rad ⟨item, hitem, hrad⟩
  . rintro h rad ⟨item, hitem, hrad⟩
    exact h ⟨item, hitem, rad, hrad⟩

theorem Misread.usable {env : Env} {value : Str} {addr : SockAddr} (h : Misread env value addr)
    : Usable env value := by
  rcases h with ⟨item, hitem, ip, len, rfl, hip, -, hnet⟩
  refine ⟨_, hitem, ?_⟩
  rw [← remapPathGetAddress_isSome_iff, remapPathGetAddress, strcut_append 47 ip len hip]
  exact (remapAuthAddr_isSome_iff env ip _).mpr hnet.readable

def SelectsPassword (annotations : Hash Str) : Prop :=
  hashGet annotations inAuthType = some (str "basic")
    ∨
  hashGet annotations inAuthType = some (str "digest")

def SatisfiedByAny (annotations : Hash Str) : Prop :=
  hashGet annotations inAuthSatisfy = some (str "any")

theorem annotated_iff {env : Env} {ns : Namespace} {path : Option Str} {annotations : Hash Str}
    {value : Str} {rp rp' : RemapPath} (hkeys : annotations.UniqueKeys)
    (hvalue : hashGet annotations inWhitelistSourceRange = some value)
    (hnew : remapPathNew env path = some rp)
    (hannotate : remapPathAnnotate env ns rp annotations = .ok rp')
    : rp'.rpAuthAddrList = remapPathGetAddresses env value
        ∧
      (rp'.rpAuthType ≠ .none ↔ SelectsPassword annotations)
        ∧
      (rp'.rpAuthSatisfy = .any ↔ SatisfiedByAny annotations) := by
  rcases remapPathAnnotate_auth hkeys hannotate with ⟨hlist, htype, hsatisfy, -⟩
  rcases remapPathNew_auth hnew with ⟨htype0, hsatisfy0, -⟩
  refine ⟨?_, ?_, ?_⟩
  . rw [hlist, hvalue]
    rfl
  . rw [htype, htype0]
    unfold SelectsPassword authTypeOf
    cases hashGet annotations inAuthType with
    | none => simp
    | some v =>
      simp only [Option.map_some, Option.getD_some, Option.some.injEq]
      split
      . next hb => simp [hb]
      . next hb =>
        split
        . next hd => simp [hd]
        . next hd => simp [hb, hd]
  . rw [hsatisfy, hsatisfy0]
    unfold SatisfiedByAny authSatisfyOf
    cases hashGet annotations inAuthSatisfy with
    | none => simp
    | some v => by_cases ha : v = str "any" <;> simp [ha]

/--
The ways in which a request gets past a whitelist that does not list its address: no item of the value
names an address, so that there is no list, or `atoi` makes a matching prefix length of a text that is
none. A path with a password still asks for it.
-/
def FailsOpen (env : Env) (annotations : Hash Str) (value : Str) (req : RemapRequest) (rp : RemapPath)
    : Prop :=
  ¬ ListsAddress env value req.rrAddr
    ∧
  ((¬ Usable env value
      ∧ (SelectsPassword annotations → ¬ SatisfiedByAny annotations ∧ authBasicOk env req rp))
    ∨
  (Misread env value req.rrAddr
    ∧ (SelectsPassword annotations → (SatisfiedByAny annotations ↔ ¬ authBasicOk env req rp))))

theorem rrCheckAuth_whitelist_iff (env : Env) (ns : Namespace) (path : Option Str)
    (annotations : Hash Str) (value : Str) (rp rp' : RemapPath) (req : RemapRequest)
    (res : RemapResult) (hkeys : annotations.UniqueKeys)
    (hvalue : hashGet annotations inWhitelistSourceRange = some value)
    (hnew : remapPathNew env path = some rp)
    (hannotate : remapPathAnnotate env ns rp annotations = .ok rp')
    : ((∃ res', rrCheckAuth env req rp' res = .ok (.ok, res')) →
          ListsAddress env value req.rrAddr
            ∨
          (SelectsPassword annotations ∧ SatisfiedByAny annotations ∧ authBasicOk env req rp'))
        ↔
      ¬ FailsOpen env annotations value req rp' := by
  rcases annotated_iff hkeys hvalue hnew hannotate with ⟨hlist, htype, hany⟩
  have hip := authCheckAddress_iff req.rrAddr hlist
  have hnil : rp'.rpAuthAddrList = [] ↔ ¬ Usable env value := by
    rw [hlist, remapPathGetAddresses_eq_nil_iff]
  have husable : Misread env value req.rrAddr → Usable env value := Misread.usable
  have hall : rp'.rpAuthSatisfy = .all ↔ ¬ SatisfiedByAny annotations := by
    rw [← hany]
    rcases rp'.rpAuthSatisfy.any_or_all with h | h <;> simp [h]
  rw [rrCheckAuth.ok_iff]
  unfold AuthPolicy FailsOpen
  simp only [hip, hnil, hany, hall, ne_eq]
  grind

def whitelistOnly (value : Str) : Hash Str :=
  hashSet (hashNew 127) inWhitelistSourceRange value

theorem entries_whitelistOnly (value : Str)
    : (whitelistOnly value).entries = [(inWhitelistSourceRange, value)] := by
  apply ChainTable.entries_set_new

theorem uniqueKeys_whitelistOnly (value : Str) : (whitelistOnly value).UniqueKeys := by
  unfold ChainTable.UniqueKeys
  rw [entries_whitelistOnly]
  simp

def requestFrom (addr : SockAddr) : RemapRequest :=
  { getRequest [] with rrAddr := addr }

theorem remapPathAnnotate_whitelistOnly (env : Env) (ns : Namespace) (value : Str)
    : remapPathAnnotate env ns remapPathDefault (whitelistOnly value)
        =
      .ok { remapPathDefault with rpAuthAddrList := remapPathGetAddresses env value } := by
  unfold remapPathAnnotate
  rw [entries_whitelistOnly, List.foldlM_cons, remapPathAnnotateOne.whitelistSourceRange]
  rfl

theorem rrCheckAuth_whitelist_loopback
    : ∃ rp', remapPathAnnotate plainEnv (namespaceMake (str "default")) remapPathDefault
            (whitelistOnly (str "127.0.0.1")) = .ok rp'
        ∧
      ((∃ res', rrCheckAuth plainEnv (requestFrom (.inet 0x0100007F)) rp' {} = .ok (.ok, res')) →
        ListsAddress plainEnv (str "127.0.0.1") (.inet 0x0100007F)
          ∨
        (SelectsPassword (whitelistOnly (str "127.0.0.1"))
          ∧ SatisfiedByAny (whitelistOnly (str "127.0.0.1"))
          ∧ authBasicOk plainEnv (requestFrom (.inet 0x0100007F)) rp')) := by
  refine ⟨_, remapPathAnnotate_whitelistOnly _ _ _, ?_⟩
  apply (rrCheckAuth_whitelist_iff plainEnv (namespaceMake (str "default")) none _ (str "127.0.0.1")
    remapPathDefault _ (requestFrom (.inet 0x0100007F)) {} (uniqueKeys_whitelistOnly _) (by simp [whitelistOnly]) rfl
    (remapPathAnnotate_whitelistOnly _ _ _)).mpr
  rintro ⟨hlists, -⟩
  apply hlists
  refine ⟨str "127.0.0.1", by decide, .inl ⟨by decide, by decide, by decide, 0x0100007F, by decide, ?_⟩⟩
  intro i _
  rfl

-- A value without an address leaves no list, and without a list nobody is asked.
theorem not_rrCheckAuth_whitelist
    : ¬ ∀ (env : Env) (ns : Namespace) (path : Option Str) (annotations : Hash Str) (value : Str)
        (rp rp' : RemapPath) (req : RemapRequest) (res : RemapResult),
        annotations.UniqueKeys →
        hashGet annotations inWhitelistSourceRange = some value →
        remapPathNew env path = some rp →
        remapPathAnnotate env ns rp annotations = .ok rp' →
        (∃ res', rrCheckAuth env req rp' res = .ok (.ok, res')) →
        ListsAddress env value req.rrAddr
          ∨
        (SelectsPassword annotations ∧ SatisfiedByAny annotations ∧ authBasicOk env req rp') := by
  intro h
  have hlists := h plainEnv (namespaceMake (str "default")) none (whitelistOnly (str "internal"))
    (str "internal") remapPathDefault _ (requestFrom (.inet 0x0100007F)) {} (uniqueKeys_whitelistOnly _)
    (by simp [whitelistOnly]) rfl (remapPathAnnotate_whitelistOnly _ _ _) ⟨_, rfl⟩
  rcases hlists with ⟨item, hitem, hnet⟩ | ⟨hpassword, -⟩
  . have heq : item = str "internal" := by
      have hitems : strtok (str ",") (str "internal") = [str "internal"] := by decide
      rw [hitems] at hitem
      simpa using hitem
    subst heq
    rcases hnet with ⟨-, hnet⟩ | ⟨ip, len, heq, -⟩
    . have := hnet.readable
      revert this
      unfold Readable
      decide
    . have hmem : (47 : UInt8) ∈ str "internal" := by
        rw [heq]
        simp
      exact absurd hmem (by decide)
  . rcases hpassword with h | h <;> cases h
