import TsIngress.Api.Impl.Make
import TsIngress.Remap.Lemmas.AnnotateWrites

/-!
This module contains what the order in which a table lists the annotations of an Ingress has to do with
the settings of the path.
-/

-- The tables of annotations that `ingress_make` makes.
def MadeTable (env : Env) (table : Hash Str) : Prop :=
  ∃ obj ing, ingressMake env obj = .ok (some ing) ∧ ing.inAnnotations = table

-- The settings are there and do not depend on the order in which a table lists the annotations.
def AnnotationsCommute (made : Hash Str → Prop) (env : Env) (ns : Namespace) (rp : RemapPath)
    (annotations : Hash Str) : Prop :=
  ∃ rp', ∀ table, made table → table.entries.Perm annotations.entries →
    remapPathAnnotate env ns rp table = .ok rp'

def CorsConflict (annotations : Hash Str) : Prop :=
  (∃ enable, hashGet annotations inEnableCors = some enable ∧ truefalse enable = false)
    ∧
  ∃ origins, hashGet annotations inCorsOrigins = some origins

namespace remapPathAnnotateOne

open RemapPath

theorem compatible_of_mayWrite {key value key' value' : Str} {w w' : Write} (hne : key ≠ key')
    (hw : MayWrite key value w) (hw' : MayWrite key' value' w')
    (h : key = inEnableCors → key' = inCorsOrigins → truefalse value = true)
    (h' : key' = inEnableCors → key = inCorsOrigins → truefalse value' = true)
    : FieldWrite.Compatible w w' := by
  rcases w with ⟨f, v⟩
  rcases w' with ⟨f', v'⟩
  rintro (rfl : f = f')
  by_cases hf : f = .enableCors
  . subst hf
    -- both writes turn CORS on, as one annotation does not write twice
    rcases hw with ⟨hkey, rfl⟩ | ⟨hkey, rfl⟩
    . rcases hw' with ⟨hkey', -⟩ | ⟨hkey', rfl⟩
      . exact absurd (hkey.trans hkey'.symm) hne
      . rw [h hkey hkey']
    . rcases hw' with ⟨hkey', rfl⟩ | ⟨hkey', -⟩
      . rw [h' hkey' hkey]
      . exact absurd (hkey.trans hkey'.symm) hne
  . rw [mayWrite_iff_of_ne hf] at hw hw'
    rw [hw, Option.some.injEq] at hw'
    exact absurd hw' hne

theorem compatible_symm {w w' : Write} (h : FieldWrite.Compatible w w') : FieldWrite.Compatible w' w := by
  intro hfield
  exact (h hfield.symm).symm

theorem Writes.comm {key value key' value' : Str} {step step' : RemapPath → Result RemapPath}
    {ws ws' : List Write} (hws : Writes key value step ws) (hws' : Writes key' value' step' ws') (hne : key ≠ key')
    (h : key = inEnableCors → key' = inCorsOrigins → truefalse value = true)
    (h' : key' = inEnableCors → key = inCorsOrigins → truefalse value' = true) (rp : RemapPath)
    : (rp.writeAll ws).writeAll ws' = (rp.writeAll ws').writeAll ws := by
  unfold RemapPath.writeAll
  rw [← FieldWrite.writeAll_append, ← FieldWrite.writeAll_append]
  apply FieldWrite.writeAll_perm fields List.perm_append_comm
  have hboth : ∀ w ∈ ws, ∀ w' ∈ ws', FieldWrite.Compatible w w' := by
    intro w hw w' hw'
    exact compatible_of_mayWrite hne (hws.mayWrite w hw) (hws'.mayWrite w' hw') h h'
  intro w hw w' hw'
  rw [List.mem_append] at hw hw'
  rcases hw with hw | hw
  . rcases hw' with hw' | hw'
    . exact List.inj_on_of_nodup_map hws.nodup hw hw'
    . exact hboth w hw w' hw'
  . rcases hw' with hw' | hw'
    . exact compatible_symm (hboth w' hw' w hw)
    . exact List.inj_on_of_nodup_map hws'.nodup hw hw'

end remapPathAnnotateOne

open remapPathAnnotateOne in
theorem foldlM_writes {env : Env} {ns : Namespace} {ws : Str × Str → List RemapPath.Write}
    {l : List (Str × Str)}
    (h : ∀ e ∈ l, Writes e.1 e.2 (fun rp => remapPathAnnotateOne env ns rp e.1 e.2) (ws e)) (rp : RemapPath)
    : l.foldlM (fun rp e => remapPathAnnotateOne env ns rp e.1 e.2) rp
        =
      .ok (l.foldl (fun rp e => rp.writeAll (ws e)) rp) := by
  induction l generalizing rp with
  | nil => rfl
  | cons e l ih =>
    rw [List.forall_mem_cons] at h
    rw [List.foldlM_cons, h.1.step_eq, Except.ok_bind, ih h.2, List.foldl_cons]

def CorsAgree (e e' : Str × Str) : Prop :=
  e.1 = inEnableCors → e'.1 = inCorsOrigins → truefalse e.2 = true

open remapPathAnnotateOne in
theorem annotationsCommute_of_swaps {made : Hash Str → Prop} {env : Env} {ns : Namespace} (rp : RemapPath)
    {annotations : Hash Str} (hkeys : annotations.UniqueKeys)
    (hends : ∀ e ∈ annotations.entries, e.1 = inAuthSecret → ∀ se, namespaceGetSecret ns e.2 = some se →
      ∀ line ∈ passwordLines se, ¬ EmptyPassword line)
    (swaps : ∀ {f : RemapPath → Str × Str → RemapPath},
      (∀ e ∈ annotations.entries, ∀ e' ∈ annotations.entries, CorsAgree e e' → CorsAgree e' e →
        ∀ rp, f (f rp e) e' = f (f rp e') e) →
      ∀ table, made table → table.entries.Perm annotations.entries →
        table.entries.foldl f rp = annotations.entries.foldl f rp)
    : AnnotationsCommute made env ns rp annotations := by
  have hwrites : ∀ e ∈ annotations.entries, IsWrites e.1 e.2
      (fun rp => remapPathAnnotateOne env ns rp e.1 e.2) := by
    intro e he
    exact isWrites env (hends e he)
  choose! ws hws using hwrites
  refine ⟨annotations.entries.foldl (fun rp e => rp.writeAll (ws e)) rp, ?_⟩
  intro table hmade hperm
  have htable : ∀ e ∈ table.entries, Writes e.1 e.2
      (fun rp => remapPathAnnotateOne env ns rp e.1 e.2) (ws e) := by
    intro e he
    exact hws e (hperm.mem_iff.mp he)
  unfold remapPathAnnotate
  rw [foldlM_writes htable]
  apply congrArg Except.ok
  apply swaps _ table hmade hperm
  intro e he e' he' hagree hagree' rp
  by_cases hkey : e.1 = e'.1
  . have heq : e = e' := List.inj_on_of_nodup_map hkeys he he' hkey
    rw [heq]
  . exact (hws e he).comm (hws e' he') hkey hagree hagree' rp

theorem annotationsCommute_of_not_corsConflict (env : Env) {ns : Namespace} (rp : RemapPath)
    {annotations : Hash Str} (hkeys : annotations.UniqueKeys) (hconflict : ¬ CorsConflict annotations)
    (hends : ∀ e ∈ annotations.entries, e.1 = inAuthSecret → ∀ se, namespaceGetSecret ns e.2 = some se →
      ∀ line ∈ passwordLines se, ¬ EmptyPassword line)
    : AnnotationsCommute (fun _ => True) env ns rp annotations := by
  have hcors : ∀ e ∈ annotations.entries, ∀ e' ∈ annotations.entries, CorsAgree e e' := by
    rintro ⟨key, value⟩ he ⟨key', value'⟩ he' rfl rfl
    rw [hkeys.mem_entries_iff] at he he'
    by_contra hfalse
    exact hconflict ⟨⟨value, he, by simpa using hfalse⟩, value', he'⟩
  apply annotationsCommute_of_swaps rp hkeys hends
  intro f hcomm table _ hperm
  apply hperm.foldl_eq'
  intro e he e' he' rp
  rw [hperm.mem_iff] at he he'
  exact hcomm e he e' he' (hcors e he e' he') (hcors e' he' e he) rp

theorem remapPathAnnotate_last {env : Env} {ns : Namespace} {rp rp' : RemapPath} {l : List (Str × Str)}
    {key value : Str} (h : remapPathAnnotate env ns rp (.ofList (l ++ [(key, value)])) = .ok rp')
    : ∃ rp'', remapPathAnnotateOne env ns rp'' key value = .ok rp' := by
  unfold remapPathAnnotate at h
  rw [ChainTable.entries_ofList, List.foldlM_append, Except.bind_eq_ok_iff] at h
  rcases h with ⟨rp'', -, h⟩
  rw [List.foldlM_cons, Except.bind_eq_ok_iff] at h
  rcases h with ⟨_, hlast, h⟩
  cases h
  exact ⟨rp'', hlast⟩

theorem not_corsConflict_of_annotationsCommute {env : Env} {ns : Namespace} {rp : RemapPath}
    {annotations : Hash Str} (h : AnnotationsCommute (fun _ => True) env ns rp annotations)
    : ¬ CorsConflict annotations := by
  rintro ⟨⟨enable, henable, hoff⟩, origins, horigins⟩
  rcases h with ⟨rp', h⟩
  have hne : (inCorsOrigins, origins) ≠ (inEnableCors, enable) := by
    rw [Ne, Prod.mk.injEq]
    exact fun heq => absurd heq.1 (by decide +kernel)
  have hmem := ChainTable.mem_entries_of_get annotations _ _ henable
  have hmem' := ChainTable.mem_entries_of_get annotations _ _ horigins
  have hpair : annotations.entries.Perm ((inEnableCors, enable) :: (inCorsOrigins, origins)
      :: (annotations.entries.erase (inEnableCors, enable)).erase (inCorsOrigins, origins)) := by
    apply (List.perm_cons_erase hmem).trans
    apply List.Perm.cons
    apply List.perm_cons_erase
    rw [List.mem_erase_of_ne hne]
    exact hmem'
  generalize (annotations.entries.erase (inEnableCors, enable)).erase (inCorsOrigins, origins) = rest at hpair
  -- the later of the two annotations has the last word
  have hon := h (.ofList (((inEnableCors, enable) :: rest) ++ [(inCorsOrigins, origins)])) trivial (by
    rw [ChainTable.entries_ofList]
    apply List.Perm.trans _ hpair.symm
    apply List.Perm.cons
    exact List.perm_append_singleton _ _)
  have hoff' := h (.ofList (((inCorsOrigins, origins) :: rest) ++ [(inEnableCors, enable)])) trivial (by
    rw [ChainTable.entries_ofList]
    apply List.Perm.trans _ hpair.symm
    exact List.perm_append_singleton _ _)
  rcases remapPathAnnotate_last hon with ⟨_, hone⟩
  rcases remapPathAnnotate_last hoff' with ⟨_, hone'⟩
  rw [remapPathAnnotateOne.corsOrigins] at hone
  rw [remapPathAnnotateOne.enableCors, hoff] at hone'
  have htrue : rp'.rpEnableCors = true := by
    cases hone
    rfl
  have hfalse : rp'.rpEnableCors = false := by
    cases hone'
    rfl
  rw [htrue] at hfalse
  cases hfalse

theorem not_emptyPassword_of_annotationsCommute {made : Hash Str → Prop} {env : Env} {ns : Namespace}
    {rp : RemapPath} {annotations : Hash Str} (hmade : made annotations)
    (h : AnnotationsCommute made env ns rp annotations)
    : ∀ secret se, hashGet annotations inAuthSecret = some secret → namespaceGetSecret ns secret = some se →
        ∀ line ∈ passwordLines se, ¬ EmptyPassword line := by
  rcases h with ⟨rp', h⟩
  have hreturns := (remapPathAnnotate_returns_iff env ns rp annotations).mp ⟨rp', h annotations hmade .rfl⟩
  intro secret se hsecret
  exact hreturns (inAuthSecret, secret) (ChainTable.mem_entries_of_get _ _ _ hsecret) rfl se

theorem not_emptyPassword_of_mem_entries {ns : Namespace} {annotations : Hash Str}
    (hkeys : annotations.UniqueKeys)
    (h : ∀ secret se, hashGet annotations inAuthSecret = some secret → namespaceGetSecret ns secret = some se →
      ∀ line ∈ passwordLines se, ¬ EmptyPassword line)
    : ∀ e ∈ annotations.entries, e.1 = inAuthSecret → ∀ se, namespaceGetSecret ns e.2 = some se →
        ∀ line ∈ passwordLines se, ¬ EmptyPassword line := by
  rintro ⟨key, secret⟩ he rfl se hse
  rw [hkeys.mem_entries_iff] at he
  exact h secret se he hse

-- In a table of any size, where the annotations can stand in any order, CORS may depend on that order.
theorem annotationsCommute_anyOrder_iff (env : Env) (ns : Namespace) (rp : RemapPath) {annotations : Hash Str}
    (hkeys : annotations.UniqueKeys)
    : AnnotationsCommute (fun _ => True) env ns rp annotations
        ↔
      ¬ CorsConflict annotations
        ∧
      ∀ secret se, hashGet annotations inAuthSecret = some secret → namespaceGetSecret ns secret = some se →
        ∀ line ∈ passwordLines se, ¬ EmptyPassword line := by
  constructor
  . intro h
    exact ⟨not_corsConflict_of_annotationsCommute h, not_emptyPassword_of_annotationsCommute trivial h⟩
  . rintro ⟨hconflict, hends⟩
    exact annotationsCommute_of_not_corsConflict env rp hkeys hconflict
      (not_emptyPassword_of_mem_entries hkeys hends)

theorem size_hashOfTexts {env : Env} {fields : List (Str × Json)} {hs : Hash Str}
    (h : hashOfTexts env fields = .ok hs)
    : hs.size = 127 := by
  unfold hashOfTexts at h
  refine ExceptFold.foldlM_invariant (P := fun hs : Hash Str => hs.size = 127) ?_ rfl h
  intro hs field hs' _ hsize hstep
  rw [Except.bind_eq_ok_iff] at hstep
  rcases hstep with ⟨s, -, hstep⟩
  cases hstep
  exact hsize

theorem size_hashOfMember {env : Env} {obj : Json} {key : String} {hs : Hash Str}
    (h : hashOfMember env obj key = .ok hs)
    : hs.size = 127 := by
  unfold hashOfMember at h
  split at h
  . cases h
    rfl
  . rw [Except.bind_eq_ok_iff] at h
    rcases h with ⟨fields, -, h⟩
    exact size_hashOfTexts h

theorem MadeTable.size_eq {env : Env} {table : Hash Str} (h : MadeTable env table) : table.size = 127 := by
  rcases h with ⟨obj, ing, h, rfl⟩
  unfold ingressMake at h
  split at h
  . cases h
  . split at h
    . rw [Except.bind_eq_ok_iff] at h
      rcases h with ⟨annotations, hannotations, h⟩
      split at h
      . cases h
        exact size_hashOfMember hannotations
      . rw [Except.bind_eq_ok_iff] at h
        rcases h with ⟨tls, -, h⟩
        rw [Except.bind_eq_ok_iff] at h
        rcases h with ⟨rules, -, h⟩
        cases h
        exact size_hashOfMember hannotations
    . cases h

-- The two annotations that both write the switch of CORS are in different buckets.
theorem bucket_corsOrigins : (fnv32 inCorsOrigins).toNat % 127 ≠ (fnv32 inEnableCors).toNat % 127 := by
  decide +kernel

/--
The tables of an Ingress list the annotations bucket by bucket, so that the order does not matter. An
empty password keeps the settings from being there at all.
-/
theorem remapPathAnnotate_commute_iff (env : Env) (ns : Namespace) (rp : RemapPath) {annotations : Hash Str}
    (hmade : MadeTable env annotations) (hkeys : annotations.UniqueKeys)
    : AnnotationsCommute (MadeTable env) env ns rp annotations
        ↔
      ∀ secret se, hashGet annotations inAuthSecret = some secret → namespaceGetSecret ns secret = some se →
        ∀ line ∈ passwordLines se, ¬ EmptyPassword line := by
  constructor
  . exact not_emptyPassword_of_annotationsCommute hmade
  . intro hends
    apply annotationsCommute_of_swaps rp hkeys (not_emptyPassword_of_mem_entries hkeys hends)
    intro f hcomm table htable hperm
    symm
    apply ChainTable.foldl_entries_perm (hmade.size_eq.trans htable.size_eq.symm) hperm.symm
    intro e he e' he' hbucket
    rw [hmade.size_eq] at hbucket
    apply hcomm e he e' he'
    . intro hkey hkey'
      rw [hkey, hkey'] at hbucket
      exact absurd hbucket.symm bucket_corsOrigins
    . intro hkey' hkey
      rw [hkey, hkey'] at hbucket
      exact absurd hbucket bucket_corsOrigins

def annotatedIngressJson (annotations : List (Str × Json)) : Json :=
  .object [
    (str "metadata", .object [
      (str "namespace", .string (str "default")),
      (str "name", .string (str "web")),
      (str "annotations", .object annotations)])]

def corsAnnotations : Hash Str :=
  hashSet (hashSet (hashNew 127) inEnableCors (str "false")) inCorsOrigins (str "http://example.com")

theorem madeTable_corsAnnotations : MadeTable plainEnv corsAnnotations := by
  refine ⟨annotatedIngressJson [
    (inEnableCors, .string (str "false")), (inCorsOrigins, .string (str "http://example.com"))], _, rfl, rfl⟩

theorem remapPathAnnotate_commute_corsAnnotations
    : AnnotationsCommute (MadeTable plainEnv) plainEnv (namespaceMake (str "default")) remapPathDefault
        corsAnnotations := by
  have hne : inEnableCors ≠ inCorsOrigins := by
    decide +kernel
  have hkeys : corsAnnotations.UniqueKeys := by
    apply ChainTable.UniqueKeys.set
    . apply ChainTable.UniqueKeys.set
      . exact ChainTable.uniqueKeys_new _ _
      . rfl
    . rw [ChainTable.get_set_ne _ _ _ _ hne.symm]
      rfl
  rw [remapPathAnnotate_commute_iff plainEnv _ _ madeTable_corsAnnotations hkeys]
  intro secret se _ hse
  cases hse

def usersAnnotations : Hash Str :=
  hashSet (hashNew 127) inAuthSecret (str "users")

def usersNamespace : Namespace :=
  { namespaceMake (str "default") with
    nsSecrets := hashSet (hashNew 127) (str "users") secretWithoutPassword }

theorem not_remapPathAnnotate_commute
    : ¬ ∀ (env : Env) (ns : Namespace) (rp : RemapPath) (annotations : Hash Str),
        MadeTable env annotations →
        annotations.UniqueKeys →
        AnnotationsCommute (MadeTable env) env ns rp annotations := by
  intro hcommute
  have hmade : MadeTable plainEnv usersAnnotations := by
    exact ⟨annotatedIngressJson [(inAuthSecret, .string (str "users"))], _, rfl, rfl⟩
  have hkeys : usersAnnotations.UniqueKeys := by
    apply ChainTable.UniqueKeys.set
    . exact ChainTable.uniqueKeys_new _ _
    . rfl
  have hends := not_emptyPassword_of_annotationsCommute hmade
    (hcommute plainEnv usersNamespace remapPathDefault usersAnnotations hmade hkeys)
  apply hends (str "users") secretWithoutPassword (ChainTable.get_set_self _ _ _)
    (ChainTable.get_set_self _ _ _) (str "x:")
  . rw [passwordLines_secretWithoutPassword]
    simp
  . rw [emptyPassword_iff]
    exact ⟨str "x", by decide⟩
