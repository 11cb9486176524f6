import TsIngress.Lib.ExceptFold
import TsIngress.Lib.FieldWrites
import TsIngress.Lib.LineSplit
import TsIngress.Tsapi.Impl.Config
import TsIngress.BasicLemmas
import Mathlib.Data.List.DropRight
import Mathlib.Logic.Nontrivial.Basic

/-!
This module contains the configuration file as a sequence of lines that each set an option, against the
pieces in which `cfg_load_file` reads it.
-/

namespace LoadedConfig

inductive Field where
  | classes
  | configmapNamespace
  | configmapName
  | server
  | tlsCertfile
  | tlsKeyfile
  | tlsCafile
  | tlsVerify
  | token
  | tls
  | remap
  | xfp
deriving DecidableEq

abbrev Field.type : Field → Type
  | .classes => Hash Unit
  | .tlsVerify | .tls | .remap | .xfp => Bool
  | _ => Option Str

abbrev Write := FieldWrite Field.type

def get (cfg : LoadedConfig) : (f : Field) → f.type
  | .classes => cfg.coClasses
  | .configmapNamespace => cfg.coConfigmapNamespace
  | .configmapName => cfg.coConfigmapName
  | .server => cfg.coServer
  | .tlsCertfile => cfg.coTlsCertfile
  | .tlsKeyfile => cfg.coTlsKeyfile
  | .tlsCafile => cfg.coTlsCafile
  | .tlsVerify => cfg.coTlsVerify
  | .token => cfg.coToken
  | .tls => cfg.coTls
  | .remap => cfg.coRemap
  | .xfp => cfg.coXfp

def ofFields (x : (f : Field) → f.type) : LoadedConfig where
  coClasses := x .classes
  coConfigmapNamespace := x .configmapNamespace
  coConfigmapName := x .configmapName
  coServer := x .server
  coTlsCertfile := x .tlsCertfile
  coTlsKeyfile := x .tlsKeyfile
  coTlsCafile := x .tlsCafile
  coTlsVerify := x .tlsVerify
  coToken := x .token
  coTls := x .tls
  coRemap := x .remap
  coXfp := x .xfp

def fields : LoadedConfig ≃ ((f : Field) → f.type) where
  toFun := get
  invFun := ofFields
  left_inv _ := rfl
  right_inv x := by
    funext f
    cases f <;> rfl

end LoadedConfig

theorem exists_ne_value (f : LoadedConfig.Field) (v : f.type) : ∃ v' : f.type, v' ≠ v := by
  have hhash : Nontrivial (Hash Unit) := by
    refine ⟨.ofList [], .ofList [([], ())], ?_⟩
    intro heq
    have hentries := congrArg ChainTable.entries heq
    rw [ChainTable.entries_ofList, ChainTable.entries_ofList] at hentries
    cases hentries
  cases f <;> exact exists_ne v

def switchValue (value : Str) : Option Bool :=
  if value = str "true" then
    some true
  else if value = str "false" then
    some false
  else
    none

def options : List (Str × (Str → Option (List LoadedConfig.Write))) := [
  (str "server", fun value => some [⟨.server, some value⟩]),
  (str "token", fun value => some [⟨.token, some value⟩]),
  (str "certfile", fun value => some [⟨.tlsCertfile, some value⟩]),
  (str "keyfile", fun value => some [⟨.tlsKeyfile, some value⟩]),
  (str "cafile", fun value => some [⟨.tlsCafile, some value⟩]),
  (str "tls", fun value => (switchValue value).map fun on => [⟨.tls, on⟩]),
  (str "tls_verify", fun value => (switchValue value).map fun on => [⟨.tlsVerify, on⟩]),
  (str "remap", fun value => (switchValue value).map fun on => [⟨.remap, on⟩]),
  (str "x_forwarded_proto", fun value => (switchValue value).map fun on => [⟨.xfp, on⟩]),
  (str "ingress_classes", fun value => some [⟨.classes, hashOfWords 11 (strtok (str " \t\r\n") value)⟩]),
  (str "configmap", fun value => (strcut 47 value).map fun cut =>
    [⟨.configmapNamespace, some cut.1⟩, ⟨.configmapName, some cut.2⟩])]

def optionWrites (name value : Str) : Option (List LoadedConfig.Write) :=
  (options.lookup name).bind (· value)

def lineText (line : Str) : Str :=
  (line.rdropWhile fun c => c = 13 ∨ c = 10).dropWhile isspace

/--
What a line sets: nothing where it is blank or a comment, and no line is without a colon, names an unknown
option or has an illegal value.
-/
def lineWrites (line : Str) : Option (List LoadedConfig.Write) :=
  if (lineText line).head? = some 35 ∨ lineText line = [] then
    some []
  else
    (strcut 58 (lineText line)).bind fun cut => optionWrites cut.1 (cut.2.dropWhile isspace)

def IllegalLine (line : Str) : Prop :=
  lineWrites line = none

def settings (lines : List Str) : List LoadedConfig.Write :=
  lines.flatMap fun line => (lineWrites line).getD []

def physicalLines (content : List UInt8) : List Str :=
  content.splitOn 10

/--
The file is read line by line: it is refused exactly for a line that is illegal, and the last line that sets
an option decides.
-/
structure ReadsLines (content : List UInt8) (cfg : LoadedConfig) (result : Except CfgError LoadedConfig)
    : Prop where
  fails_iff : (∃ e, result = .error e) ↔ ∃ line ∈ physicalLines content, IllegalLine line
  sets : ∀ cfg', result = .ok cfg' → ∀ f,
    cfg'.get f = (FieldWrite.last (settings (physicalLines content)) f).getD (cfg.get f)

def Effect (cfg : LoadedConfig) (ws : Option (List LoadedConfig.Write)) (result : Except ε LoadedConfig)
    : Prop :=
  match ws with
  | none => ∃ e, result = .error e
  | some ws => result = .ok (FieldWrite.writeAll LoadedConfig.fields cfg ws)

theorem Effect.lookup {cfg : LoadedConfig} {name key value : Str}
    {f : Str → Option (List LoadedConfig.Write)} {rest : List (Str × (Str → Option (List LoadedConfig.Write)))}
    {x y : Except ε LoadedConfig} (hx : name = key → Effect cfg (f value) x)
    (hy : Effect cfg ((rest.lookup name).bind (· value)) y)
    : Effect cfg ((((key, f) :: rest).lookup name).bind (· value)) (if name = key then x else y) := by
  rw [List.lookup_cons]
  by_cases h : name = key
  . rw [if_pos h, beq_iff_eq.mpr h]
    exact hx h
  . rw [if_neg h, beq_eq_false_iff_ne.mpr h]
    exact hy

theorem effect_cfgTrueOrFalse (cfg : LoadedConfig) (value : Str) {f : Bool → LoadedConfig}
    {ws : Bool → List LoadedConfig.Write}
    (h : ∀ on, f on = FieldWrite.writeAll LoadedConfig.fields cfg (ws on))
    : Effect cfg ((switchValue value).map ws) (do return f (← cfgTrueOrFalse value)) := by
  unfold switchValue cfgTrueOrFalse
  split
  . exact congrArg Except.ok (h true)
  . split
    . exact congrArg Except.ok (h false)
    . exact ⟨_, rfl⟩

theorem effect_cfgSetOption (cfg : LoadedConfig) (opt value : Str)
    : Effect cfg (optionWrites opt value) (cfgSetOption cfg opt value) := by
  unfold optionWrites options cfgSetOption
  iterate 5
    refine Effect.lookup (fun _ => rfl) ?_
  iterate 4
    refine Effect.lookup (fun _ => effect_cfgTrueOrFalse cfg value fun _ => rfl) ?_
  refine Effect.lookup (fun _ => rfl) ?_
  refine Effect.lookup (fun _ => ?_) ?_
  . unfold cfgSetConfigmap
    cases strcut 47 value with
    | none => exact ⟨_, rfl⟩
    | some cut => rfl
  . exact ⟨_, rfl⟩

theorem effect_cfgLoadLine (file : Str) (cfg : LoadedConfig) {line : List UInt8} (hnul : 0 ∉ line) (lineno : Nat)
    : Effect cfg (lineWrites line) (cfgLoadLine file cfg (line, lineno)) := by
  unfold lineWrites cfgLoadLine
  dsimp only
  rw [cstr_of_notMem hnul]
  have htext : (cfgStripLine line).dropWhile isspace = lineText line := rfl
  rw [htext]
  split
  . rfl
  . cases strcut 58 (lineText line) with
    | none => exact ⟨_, rfl⟩
    | some cut =>
      have heffect := effect_cfgSetOption cfg cut.1 (cut.2.dropWhile isspace)
      rw [Option.bind_some]
      dsimp only
      cases hws : optionWrites cut.1 (cut.2.dropWhile isspace) with
      | none =>
        rw [hws] at heffect
        rcases heffect with ⟨e, heq⟩
        rw [heq]
        exact ⟨_, rfl⟩
      | some ws =>
        rw [hws] at heffect
        have heq : cfgSetOption cfg cut.1 (cut.2.dropWhile isspace) = _ := heffect
        rw [heq]
        rfl

theorem foldlM_cfgLoadLine (file : Str) {lines : List (List UInt8 × Nat)} (hnul : ∀ line ∈ lines, 0 ∉ line.1)
    (cfg : LoadedConfig)
    : ((∃ e, lines.foldlM (cfgLoadLine file) cfg = .error e) ↔ ∃ line ∈ lines, IllegalLine line.1)
        ∧
      ∀ cfg', lines.foldlM (cfgLoadLine file) cfg = .ok cfg' →
        cfg' = FieldWrite.writeAll LoadedConfig.fields cfg (settings (lines.map Prod.fst)) := by
  induction lines generalizing cfg with
  | nil =>
    constructor
    . constructor
      . rintro ⟨e, h⟩
        cases h
      . rintro ⟨line, hline, -⟩
        cases hline
    . intro cfg' h
      cases h
      rfl
  | cons line lines ih =>
    rw [List.forall_mem_cons] at hnul
    have hstep := effect_cfgLoadLine file cfg hnul.1 line.2
    rw [List.foldlM_cons, List.exists_mem_cons_iff, List.map_cons, settings, List.flatMap_cons]
    cases hws : lineWrites line.1 with
    | none =>
      rw [hws] at hstep
      rcases hstep with ⟨e, hstep⟩
      rw [hstep, Except.error_bind]
      constructor
      . exact ⟨fun _ => .inl hws, fun _ => ⟨e, rfl⟩⟩
      . intro cfg' h
        cases h
    | some ws =>
      rw [hws] at hstep
      have heq : cfgLoadLine file cfg line = _ := hstep
      have hlegal : ¬ IllegalLine line.1 := by
        unfold IllegalLine
        rw [hws]
        simp
      rcases ih hnul.2 (FieldWrite.writeAll LoadedConfig.fields cfg ws) with ⟨hfails, hsets⟩
      rw [heq, Except.ok_bind, hfails, Option.getD_some, FieldWrite.writeAll_append]
      exact ⟨by simp [hlegal], hsets⟩

theorem fgets_append {size : Nat} {content piece rest : List UInt8} (h : fgets size content = some (piece, rest))
    : content = piece ++ rest := by
  unfold fgets at h
  split at h
  . cases h
  . cases h
    rw [List.take_append_drop]

theorem mem_of_mem_fgetsLines {size : Nat} {content piece : List UInt8} (h : piece ∈ fgetsLines size content)
    : ∀ c ∈ piece, c ∈ content := by
  have hgo : ∀ fuel content, piece ∈ fgetsLines.go size fuel content → ∀ c ∈ piece, c ∈ content := by
    intro fuel
    induction fuel with
    | zero =>
      intro content hmem
      cases hmem
    | succ fuel ih =>
      intro content hmem c hc
      unfold fgetsLines.go at hmem
      split at hmem
      . cases hmem
      . next line rest hfgets =>
        rw [fgets_append hfgets, List.mem_append]
        rcases List.mem_cons.mp hmem with rfl | hmem
        . exact .inl hc
        . exact .inr (ih rest hmem c hc)
  exact hgo content.length content h

theorem eq_of_forall_getD {o o' : Option α} (hne : ∀ v : α, ∃ v', v' ≠ v) (h : ∀ v, o.getD v = o'.getD v)
    : o = o' := by
  cases o with
  | none =>
    cases o' with
    | none => rfl
    | some v' =>
      rcases hne v' with ⟨v, hv⟩
      exact absurd (h v) hv
  | some v =>
    cases o' with
    | none =>
      rcases hne v with ⟨v', hv'⟩
      exact absurd (h v').symm hv'
    | some v' => exact congrArg some (h v)

theorem exists_get_eq (f : LoadedConfig.Field) (v : f.type) : ∃ cfg : LoadedConfig, cfg.get f = v := by
  refine ⟨LoadedConfig.fields.symm (Function.update k8sConfigNew.get f v), ?_⟩
  have hfields := LoadedConfig.fields.apply_symm_apply (Function.update k8sConfigNew.get f v)
  exact (congrFun hfields f).trans (Function.update_self f v _)

/--
The pieces of a file set what its lines set: one is illegal exactly if a line is, and otherwise the last
piece that sets an option gives it the value that the last line gives it that sets it.
-/
def SameSettings (pieces lines : List Str) : Prop :=
  ((∃ piece ∈ pieces, IllegalLine piece) ↔ ∃ line ∈ lines, IllegalLine line)
    ∧
  ((∀ piece ∈ pieces, ¬ IllegalLine piece) →
    ∀ f, FieldWrite.last (settings pieces) f = FieldWrite.last (settings lines) f)

def cfgPath (ps : Process) (file : Str) : Str :=
  if 47 ∈ file then file else snprintf (pathMax + 1) (ps.tsConfigDirGet ++ str "/" ++ file)

section

variable {ps : Process} {file : Str} {content : List UInt8} (hfile : ps.fopen (cfgPath ps file) = some content)
  (hnul : 0 ∉ content)

include hfile hnul

theorem cfgLoadFile_pieces (cfg : LoadedConfig)
    : ((∃ e, cfgLoadFile ps cfg file = .error e) ↔ ∃ piece ∈ fgetsLines 1024 content, IllegalLine piece)
        ∧
      ∀ cfg', cfgLoadFile ps cfg file = .ok cfg' → ∀ f,
        cfg'.get f = (FieldWrite.last (settings (fgetsLines 1024 content)) f).getD (cfg.get f) := by
  have hload : cfgLoadFile ps cfg file
      = ((fgetsLines 1024 content).zipIdx 1).foldlM (cfgLoadLine (cfgPath ps file)) cfg := by
    unfold cfgLoadFile
    dsimp only
    rw [← cfgPath, hfile]
  have hpieces : ∀ line ∈ (fgetsLines 1024 content).zipIdx 1, 0 ∉ line.1 := by
    intro line hline hzero
    exact hnul (mem_of_mem_fgetsLines (List.fst_mem_of_mem_zipIdx hline) 0 hzero)
  have hmap : ((fgetsLines 1024 content).zipIdx 1).map Prod.fst = fgetsLines 1024 content :=
    List.zipIdx_map_fst 1 _
  rcases foldlM_cfgLoadLine (cfgPath ps file) hpieces cfg with ⟨hfails, hsets⟩
  rw [hload, hfails]
  constructor
  . constructor
    . rintro ⟨line, hline, hillegal⟩
      exact ⟨line.1, List.fst_mem_of_mem_zipIdx hline, hillegal⟩
    . rintro ⟨piece, hpiece, hillegal⟩
      rw [← hmap, List.mem_map] at hpiece
      rcases hpiece with ⟨line, hline, rfl⟩
      exact ⟨line, hline, hillegal⟩
  . intro cfg' h f
    have heq := hsets cfg' h
    rw [hmap] at heq
    rw [heq]
    exact FieldWrite.view_writeAll LoadedConfig.fields cfg _ f

theorem forall_readsLines_iff
    : (∀ cfg, ReadsLines content cfg (cfgLoadFile ps cfg file))
        ↔
      SameSettings (fgetsLines 1024 content) (physicalLines content) := by
  have hcode := cfgLoadFile_pieces hfile hnul
  constructor
  . intro h
    refine ⟨?_, ?_⟩
    . rw [← (hcode k8sConfigNew).1, (h k8sConfigNew).fails_iff]
    . intro hlegal f
      apply eq_of_forall_getD (exists_ne_value f)
      intro v
      rcases exists_get_eq f v with ⟨cfg, hget⟩
      rcases Except.eq_ok_or_eq_error (cfgLoadFile ps cfg file) with ⟨cfg', hok⟩ | ⟨e, herror⟩
      . have hleft := (hcode cfg).2 cfg' hok f
        have hright := (h cfg).sets cfg' hok f
        rw [← hget, ← hleft, hright]
      . rcases (hcode cfg).1.mp ⟨e, herror⟩ with ⟨piece, hpiece, hillegal⟩
        exact absurd hillegal (hlegal piece hpiece)
  . rintro ⟨hfails, hsets⟩ cfg
    refine ⟨(hcode cfg).1.trans hfails, ?_⟩
    intro cfg' hok f
    have hlegal : ∀ piece ∈ fgetsLines 1024 content, ¬ IllegalLine piece := by
      intro piece hpiece hillegal
      rcases (hcode cfg).1.mpr ⟨piece, hpiece, hillegal⟩ with ⟨e, herror⟩
      rw [hok] at herror
      cases herror
    rw [← hsets hlegal f]
    exact (hcode cfg).2 cfg' hok f

end

theorem lineWrites_newline (line : Str) : lineWrites (line ++ [10]) = lineWrites line := by
  have htext : lineText (line ++ [10]) = lineText line := by
    unfold lineText
    rw [List.rdropWhile_concat_pos _ _ _ (by decide)]
  unfold lineWrites
  rw [htext]

theorem fgets_length_lt {size : Nat} (hsize : 2 ≤ size) {content piece rest : List UInt8}
    (h : fgets size content = some (piece, rest))
    : rest.length < content.length := by
  unfold fgets at h
  split at h
  . cases h
  . next hne =>
    have hpos := List.length_pos_iff.mpr hne
    cases h
    rw [List.length_drop]
    omega

theorem fgetsLines_eq {size : Nat} (hsize : 2 ≤ size) (content : List UInt8)
    : fgetsLines size content
        =
      match fgets size content with
      | none => []
      | some (piece, rest) => piece :: fgetsLines size rest := by
  -- the fuel does not run out as every piece has a byte
  have hfuel : ∀ fuel content, content.length ≤ fuel →
      fgetsLines.go size fuel content = fgetsLines.go size content.length content := by
    intro fuel
    induction fuel using Nat.strongRecOn with
    | ind fuel ih =>
      intro content hle
      cases fuel with
      | zero =>
        rw [Nat.le_zero.mp hle]
      | succ fuel =>
        cases content with
        | nil => rfl
        | cons c content =>
          rw [List.length_cons, fgetsLines.go, fgetsLines.go]
          cases hfgets : fgets size (c :: content) with
          | none => rfl
          | some line =>
            have hlt := fgets_length_lt hsize hfgets
            rw [List.length_cons] at hle hlt
            dsimp only
            rw [ih fuel (by omega) line.2 (by omega), ih content.length (by omega) line.2 (by omega)]
  cases content with
  | nil => rfl
  | cons c content =>
    unfold fgetsLines
    rw [List.length_cons, fgetsLines.go]
    cases hfgets : fgets size (c :: content) with
    | none => rfl
    | some line =>
      have hlt := fgets_length_lt hsize hfgets
      rw [List.length_cons] at hlt
      dsimp only
      rw [hfuel content.length line.2 (by omega)]

theorem fgets_line {size : Nat} {xs : List UInt8} (hxs : 10 ∉ xs) (hsize : xs.length + 1 < size) (as : List UInt8)
    : fgets size (xs ++ 10 :: as) = some (xs ++ [10], as) := by
  have hmin : min (size - 1) (xs.length + 1) = (xs ++ [10]).length := by
    rw [List.length_append, List.length_singleton]
    omega
  unfold fgets
  rw [if_neg (by simp)]
  dsimp only
  rw [takeWhile_append_of_notMem hxs, hmin, List.append_cons xs 10 as, List.take_left, List.drop_left]

theorem fgets_last {size : Nat} {xs : List UInt8} (hxs : 10 ∉ xs) (hne : xs ≠ []) (hsize : xs.length < size)
    : fgets size xs = some (xs, []) := by
  have hmin : xs.length ≤ min (size - 1) (xs.length + 1) := by
    omega
  unfold fgets
  rw [if_neg hne]
  dsimp only
  rw [takeWhile_of_notMem hxs, List.take_of_length_le hmin, List.drop_of_length_le hmin]

-- A line that fills the buffer leaves its newline for a piece of its own.
theorem fgets_full {size : Nat} {xs : List UInt8} (hxs : 10 ∉ xs) (hne : xs ≠ []) (hsize : xs.length + 1 = size)
    (as : List UInt8)
    : fgets size (xs ++ 10 :: as) = some (xs, 10 :: as) := by
  have hmin : min (size - 1) (xs.length + 1) = xs.length := by
    omega
  unfold fgets
  rw [if_neg (by simp [hne])]
  dsimp only
  rw [takeWhile_append_of_notMem hxs, hmin, List.take_left, List.drop_left]

structure SameWrites (pieces lines : List Str) : Prop where
  illegal_iff : (∃ piece ∈ pieces, IllegalLine piece) ↔ ∃ line ∈ lines, IllegalLine line
  settings_eq : settings pieces = settings lines

theorem SameWrites.sameSettings {pieces lines : List Str} (h : SameWrites pieces lines)
    : SameSettings pieces lines := by
  refine ⟨h.illegal_iff, ?_⟩
  intro _ f
  rw [h.settings_eq]

theorem SameWrites.cons {piece line : Str} {pieces lines : List Str} (hline : lineWrites piece = lineWrites line)
    (h : SameWrites pieces lines)
    : SameWrites (piece :: pieces) (line :: lines) := by
  constructor
  . rw [List.exists_mem_cons_iff, List.exists_mem_cons_iff, h.illegal_iff, IllegalLine, IllegalLine, hline]
  . have hsettings := h.settings_eq
    unfold settings at hsettings ⊢
    rw [List.flatMap_cons, List.flatMap_cons, hsettings, hline]

theorem SameWrites.blank {piece : Str} {pieces lines : List Str} (hblank : lineWrites piece = some [])
    (h : SameWrites pieces lines)
    : SameWrites (piece :: pieces) lines := by
  have hlegal : ¬ IllegalLine piece := by
    unfold IllegalLine
    rw [hblank]
    simp
  constructor
  . rw [List.exists_mem_cons_iff, h.illegal_iff]
    exact or_iff_right hlegal
  . have hsettings := h.settings_eq
    unfold settings at hsettings ⊢
    rw [List.flatMap_cons, hsettings, hblank]
    rfl

theorem sameWrites_of_short {content : List UInt8} (h : ∀ line ∈ physicalLines content, line.length ≤ 1023)
    : SameWrites (fgetsLines 1024 content) (physicalLines content) := by
  unfold physicalLines at h ⊢
  induction content using LineSplit.stream_induction (10 : UInt8) with
  | hlast xs hxs =>
    rw [List.splitOn_eq_singleton hxs, List.forall_mem_singleton] at h
    rw [List.splitOn_eq_singleton hxs]
    by_cases hne : xs = []
    . subst hne
      have hempty : ¬ IllegalLine [] := by
        unfold IllegalLine
        decide
      refine ⟨?_, rfl⟩
      simp [hempty, fgetsLines, fgetsLines.go]
    . rw [fgetsLines_eq (by omega), fgets_last hxs hne (by omega)]
      exact ⟨Iff.rfl, rfl⟩
  | hline xs as hxs ih =>
    rw [LineSplit.splitOn_cons hxs, List.forall_mem_cons] at h
    have hrest := ih h.2
    rw [LineSplit.splitOn_cons hxs, fgetsLines_eq (by omega)]
    by_cases hshort : xs.length ≤ 1022
    . rw [fgets_line hxs (by omega)]
      exact hrest.cons (lineWrites_newline xs)
    . have hne : xs ≠ [] := by
        rintro rfl
        exact hshort (by simp)
      have hnewline : fgets 1024 (10 :: as) = some ([10], as) :=
        fgets_line List.not_mem_nil (by simp) as
      rw [fgets_full hxs hne (by omega)]
      dsimp only
      rw [fgetsLines_eq (by omega), hnewline]
      exact (hrest.blank (lineWrites_newline [])).cons rfl

/--
A file is read line by line exactly if cutting it into pieces changes nothing of what it sets, as it is if no
line is too long for the buffer.
-/
theorem cfgLoadFile_readsLines_iff {ps : Process} {file : Str} {content : List UInt8}
    (hfile : ps.fopen (cfgPath ps file) = some content) (hnul : 0 ∉ content)
    : ((∀ cfg, ReadsLines content cfg (cfgLoadFile ps cfg file))
        ↔
      SameSettings (fgetsLines 1024 content) (physicalLines content))
        ∧
      ((∀ line ∈ physicalLines content, line.length ≤ 1023) →
        SameSettings (fgetsLines 1024 content) (physicalLines content)) := by
  refine ⟨forall_readsLines_iff hfile hnul, ?_⟩
  intro h
  exact (sameWrites_of_short h).sameSettings

def fileProcess (content : List UInt8) : Process where
  fopen _ := some content
  stat _ := false
  getenv _ := none
  tsConfigDirGet := str "/etc/trafficserver"

def tokenFile : List UInt8 :=
  str "# credentials\ntoken: secret\n"

theorem cfgLoadFile_readsLines_token
    : ReadsLines tokenFile k8sConfigNew
        (cfgLoadFile (fileProcess tokenFile) k8sConfigNew (str "kubernetes.config")) := by
  have hshort : ∀ line ∈ physicalLines tokenFile, line.length ≤ 1023 := by
    decide +kernel
  have hfile : (fileProcess tokenFile).fopen (cfgPath (fileProcess tokenFile) (str "kubernetes.config"))
      = some tokenFile := rfl
  have hreads := cfgLoadFile_readsLines_iff hfile (by decide +kernel)
  exact hreads.1.mpr (hreads.2 hshort) k8sConfigNew

def longToken : List UInt8 :=
  str "token:" ++ List.replicate 1100 97

theorem not_cfgLoadFile_readsLines
    : 0 ∉ longToken
        ∧
      ¬ ReadsLines longToken k8sConfigNew
          (cfgLoadFile (fileProcess longToken) k8sConfigNew (str "kubernetes.config")) := by
  have hnul : 0 ∉ longToken := by
    decide +kernel
  have hlegal : ∀ line ∈ physicalLines longToken, ¬ IllegalLine line := by
    unfold IllegalLine
    decide +kernel
  have hcut : ∃ piece ∈ fgetsLines 1024 longToken, IllegalLine piece := by
    unfold IllegalLine
    decide +kernel
  refine ⟨hnul, ?_⟩
  intro h
  rcases h.fails_iff.mp ((cfgLoadFile_pieces rfl hnul k8sConfigNew).1.mpr hcut) with ⟨line, hline, hillegal⟩
  exact hlegal line hline hillegal
