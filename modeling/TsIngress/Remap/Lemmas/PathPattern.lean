import TsIngress.Remap.Lemmas.Annotate
import TsIngress.Remap.Lemmas.Rewrite
import TsIngress.Lib.EreSyntax

/-!
This module contains what the pattern of a path matches when `regexec` treats it as POSIX says.
The pattern is the path of the Ingress with a circumflex in the place of its slash.
-/

open Ere

-- One pattern is of the syntax of POSIX, and it is matched as POSIX says. Nothing is assumed of other patterns.
def Env.PosixOn (env : Env) (pat : Str) : Prop :=
  ∃ p, parse pat = some p ∧ ∀ s m, env.regexec pat s = some m ↔ LeftmostLongest s p.regex m.1 m.2

theorem remapHostFindPath_some {env : Env} {rh : RemapHost} {path pat : Str} {rp : RemapPath} {pfxsz : Nat}
    (hdefault : ∀ d, rh.rhPaths.head? = some d → d.rpRegex = none) (hpat : rp.rpRegex = some pat)
    (h : remapHostFindPath env rh (some path) = (some rp, pfxsz))
    : ∃ m, env.regexec pat path = some m ∧ pfxsz = m.2 - m.1 := by
  unfold remapHostFindPath at h
  dsimp only at h
  generalize rh.rhPaths.tail = paths at h
  induction paths with
  | nil =>
    rw [remapHostFindPath.go, Prod.mk.injEq] at h
    rw [hdefault rp h.1] at hpat
    cases hpat
  | cons first rest ih =>
    rw [remapHostFindPath.go] at h
    split at h
    . next m hm =>
      cases h
      rw [hpat] at hm
      exact ⟨m, hm, rfl⟩
    . exact ih h

namespace Ere.Pattern

theorem matches_anchor_iff (p : Pattern) (w : List UInt8) (i j : Nat)
    : Matches w p.anchor.regex i j
        ↔
      (i = 0 ∧ Matches w p.first 0 j) ∨ ∃ r ∈ p.others, Matches w r i j := by
  rw [matches_regex_iff]
  unfold branches anchor
  dsimp only
  rw [List.exists_mem_cons_iff, Matches.bol_seq_iff]

theorem matches_anchor_zero_iff (p : Pattern) (w : List UInt8) (j : Nat)
    : Matches w p.anchor.regex 0 j ↔ Matches w p.regex 0 j := by
  rw [matches_anchor_iff, matches_regex_iff]
  unfold branches
  rw [List.exists_mem_cons_iff]
  simp

end Ere.Pattern

-- The path takes the first `pfxsz` bytes of the request path, and a target takes their place.
structure TakesPrefix (env : Env) (rh : RemapHost) (rp : RemapPath) (r path : Str) (p : Pattern)
    (pfxsz : Nat) : Prop where
  start : env.regexec (94 :: r) path = some (0, pfxsz)
  accepts : Accepts p.regex (path.take pfxsz)
  rewrites : ∀ db req host rnd code res target,
    Selects env db req host rh rp pfxsz →
    req.rrPath = some path →
    rp.rpRewriteTarget = some target →
    remapRun env db req rnd = .ok (code, res) →
    code.Rewritten →
    res.rzUrlpath = some (target ++ path.drop pfxsz)

/--
The circumflex anchors the first alternative only, so the match begins at the start of the request path
exactly if some alternative matches there or none but the first one matches at all.
-/
theorem remapHostFindPath_takesPrefix_iff (env : Env) (rh : RemapHost) (r path : Str) (new rp : RemapPath)
    (pfxsz : Nat) (hposix : env.PosixOn (94 :: r)) (hnew : remapPathNew env (some (47 :: r)) = some new)
    (hregex : rp.rpRegex = new.rpRegex) (hdefault : ∀ d, rh.rhPaths.head? = some d → d.rpRegex = none)
    (hfind : remapHostFindPath env rh (some path) = (some rp, pfxsz))
    : ∃ p, parse r = some p
        ∧
      (TakesPrefix env rh rp r path p pfxsz
        ↔
      (∃ b ∈ p.branches, ∃ j, Matches path b 0 j) ∨ ∀ b ∈ p.others, ∀ i j, ¬ Matches path b i j) := by
  have hpat : rp.rpRegex = some (remapPathPattern (47 :: r)) := by
    rw [hregex, (remapPathNew_eq_some hnew).1]
    rfl
  rcases hposix with ⟨q, hanchor, hregexec⟩
  rw [parse_circumflex, Option.map_eq_some_iff] at hanchor
  rcases hanchor with ⟨p, hparse, rfl⟩
  refine ⟨p, hparse, ?_⟩
  rcases remapHostFindPath_some hdefault hpat hfind with ⟨m, hexec, hpfxsz⟩
  have hsearch := (hregexec path m).mp hexec
  constructor
  . intro htakes
    left
    have hm : m = (0, pfxsz) := by
      have hstart := htakes.start
      change env.regexec (94 :: r) path = some m at hexec
      rw [hexec] at hstart
      exact Option.some.inj hstart
    have hmatch := hsearch.isMatch
    rw [hm, Pattern.matches_anchor_zero_iff, Pattern.matches_regex_iff] at hmatch
    rcases hmatch with ⟨b, hb, hmatch⟩
    exact ⟨b, hb, pfxsz, hmatch⟩
  . intro hcond
    have hzero : m.1 = 0 := by
      rcases hcond with ⟨b, hb, j, hmatch⟩ | hnone
      . have hleft := hsearch.leftmost 0 j (by
          rw [Pattern.matches_anchor_zero_iff, Pattern.matches_regex_iff]
          exact ⟨b, hb, hmatch⟩)
        omega
      . rcases (Pattern.matches_anchor_iff _ _ _ _).mp hsearch.isMatch with ⟨hzero, -⟩ | ⟨b, hb, hmatch⟩
        . exact hzero
        . exact absurd hmatch (hnone b hb _ _)
    have hend : m.2 = pfxsz := by omega
    have hmatch := hsearch.isMatch
    rw [hzero, hend, Pattern.matches_anchor_zero_iff] at hmatch
    constructor
    . rw [← hend, ← hzero]
      exact hexec
    . exact hmatch.accepts_take
    . intro db req host rnd code res target hsel hpath htarget hrun hcode
      rw [remapRun.rzUrlpath hsel hrun hcode, hpath]
      apply rewrittenPath_of_target htarget

def posixEnv : Env :=
  { plainEnv with
    regcomp := fun pat => (parse pat).isSome
    regexec := fun pat s => (parse pat).bind fun p => search s p.regex
    regexec_bounds := by
      intro pat s m h
      rw [Option.bind_eq_some_iff] at h
      rcases h with ⟨p, -, h⟩
      rw [search_eq_some_iff] at h
      exact h.isMatch.bounds }

theorem posixEnv_posixOn {pat : Str} (h : (parse pat).isSome) : posixEnv.PosixOn pat := by
  rw [Option.isSome_iff_exists] at h
  rcases h with ⟨p, h⟩
  refine ⟨p, h, ?_⟩
  intro s m
  have hexec : posixEnv.regexec pat s = search s p.regex := by
    change (parse pat).bind (fun p => search s p.regex) = search s p.regex
    rw [h]
    rfl
  rw [hexec]
  apply search_eq_some_iff

def patternHost (r : Str) : RemapHost :=
  { remapHostNew with
    rhPaths := [remapPathDefault, { remapPathDefault with rpRegex := some (94 :: r) }]
    rhPaths_ne_nil := by simp }

theorem remapPathNew_posixEnv {r : Str} (h : (parse (94 :: r)).isSome)
    : remapPathNew posixEnv (some (47 :: r)) = some { remapPathDefault with rpRegex := some (94 :: r) } := by
  have hcomp : posixEnv.regcomp (94 :: r) = true := h
  simp [remapPathNew, remapPathPattern, hcomp]

theorem remapHostFindPath_patternHost {r path : Str} {m : Nat × Nat}
    (h : posixEnv.regexec (94 :: r) path = some m)
    : remapHostFindPath posixEnv (patternHost r) (some path)
        = (some { remapPathDefault with rpRegex := some (94 :: r) }, m.2 - m.1) := by
  simp [remapHostFindPath, remapHostFindPath.go, patternHost, h]

theorem rpRegex_patternHost (r : Str) (d : RemapPath) (h : (patternHost r).rhPaths.head? = some d)
    : d.rpRegex = none := by
  cases h
  rfl

-- A plain path has one alternative.
theorem remapHostFindPath_takesPrefix_app
    : ∃ p, parse (str "app") = some p
        ∧
      TakesPrefix posixEnv (patternHost (str "app"))
        { remapPathDefault with rpRegex := some (94 :: str "app") } (str "app") (str "app/x") p 3 := by
  have hexec : posixEnv.regexec (94 :: str "app") (str "app/x") = some (0, 3) := by
    decide
  rcases remapHostFindPath_takesPrefix_iff posixEnv (patternHost (str "app")) (str "app") (str "app/x") _ _ 3
    (posixEnv_posixOn rfl) (remapPathNew_posixEnv rfl) rfl (rpRegex_patternHost _)
    (remapHostFindPath_patternHost hexec) with ⟨p, hparse, htakes⟩
  refine ⟨p, hparse, htakes.mpr ?_⟩
  right
  cases hparse
  intro b hb
  cases hb

-- The path `/a|b` is found in the request path `xb`, where it matches the second byte.
theorem not_remapHostFindPath_takesPrefix
    : ¬ ∀ (env : Env) (rh : RemapHost) (r path : Str) (new rp : RemapPath) (pfxsz : Nat),
        env.PosixOn (94 :: r) →
        remapPathNew env (some (47 :: r)) = some new →
        rp.rpRegex = new.rpRegex →
        (∀ d, rh.rhPaths.head? = some d → d.rpRegex = none) →
        remapHostFindPath env rh (some path) = (some rp, pfxsz) →
        ∃ p, parse r = some p ∧ TakesPrefix env rh rp r path p pfxsz := by
  intro htakes
  have hexec : posixEnv.regexec (94 :: str "a|b") (str "xb") = some (1, 2) := by
    decide
  rcases htakes posixEnv (patternHost (str "a|b")) (str "a|b") (str "xb") _ _ 1 (posixEnv_posixOn rfl)
    (remapPathNew_posixEnv rfl) rfl (rpRegex_patternHost _) (remapHostFindPath_patternHost hexec) with
    ⟨p, -, htakes⟩
  have hstart := htakes.start
  rw [hexec] at hstart
  cases hstart
