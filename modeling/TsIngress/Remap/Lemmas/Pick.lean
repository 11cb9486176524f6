import TsIngress.Lib.RangePick
import TsIngress.Remap.Lemmas.Rewrite

/-!
This module contains the choice of a backend: a request that is handed on gets one of the targets of its
path, and every target of a path can be chosen.
-/

def pickIndex (env : Env) (rp : RemapPath) (rnd : Nat) : Nat :=
  RangePick.index env.randMax rp.rpAddrs.length rnd

theorem remapPathPickTarget_eq (env : Env) (rp : RemapPath) (rnd : Nat)
    : remapPathPickTarget env rp rnd = rp.rpAddrs[pickIndex env rp rnd]? := by
  rfl

theorem remapPathPickTarget_mem {env : Env} {rp : RemapPath} {rnd : Nat} (haddrs : rp.rpAddrs.length ≠ 0)
    (hrnd : rnd ≤ env.randMax)
    : ∃ target ∈ rp.rpAddrs, remapPathPickTarget env rp rnd = some target := by
  have hlt : pickIndex env rp rnd < rp.rpAddrs.length :=
    RangePick.index_lt (Nat.pos_of_ne_zero haddrs) hrnd
  rw [remapPathPickTarget_eq, List.getElem?_eq_getElem hlt]
  exact ⟨_, List.getElem_mem hlt, rfl⟩

-- A target is picked for the requests that are handed on and for no others, from a path that has targets.
structure PicksBackend (env : Env) (rnd : Nat) (code : RR) (res : RemapResult) : Prop where
  pathFound : code ≠ .errNoPath
  notPicked : code ≠ .ok → res.rzTarget = none
  picked : code = .ok →
    ∃ rp, res.rzPath = some rp
      ∧
    rp.rpAddrs.length ≠ 0
      ∧
    res.rzTarget = remapPathPickTarget env rp rnd
      ∧
    ∃ target ∈ rp.rpAddrs, res.rzTarget = some target

theorem remapRunAuthorized.picksBackend {env : Env} {req : RemapRequest} {rp : RemapPath} {rh : RemapHost}
    {pfxsz rnd : Nat} {code : RR} {res : RemapResult} (hrnd : rnd ≤ env.randMax)
    (h : remapRunAuthorized env req rp pfxsz rnd (.selected rh rp) = .ok (code, res))
    : PicksBackend env rnd code res := by
  cases outcome h with
  | cors => exact ⟨by simp, fun _ => rfl, by simp⟩
  | appRoot => exact ⟨by simp, fun _ => rfl, by simp⟩
  | invalidProtocol => exact ⟨by simp, fun _ => rfl, by simp⟩
  | noBackend => exact ⟨by simp, fun _ => rfl, by simp⟩
  | picked hproto haddrs =>
    refine ⟨by simp, by simp, ?_⟩
    intro _
    exact ⟨rp, rfl, haddrs, rfl, remapPathPickTarget_mem haddrs hrnd⟩

theorem remapRun.picksBackend {env : Env} {db : RemapDb} {req : RemapRequest} {rnd : Nat} {code : RR}
    {res : RemapResult} (hrnd : rnd ≤ env.randMax) (h : remapRun env db req rnd = .ok (code, res))
    : PicksBackend env rnd code res := by
  cases outcome h with
  | healthcheck hhealth => exact ⟨by simp, fun _ => rfl, by simp⟩
  | invalidHost hhealth => exact ⟨by simp, fun _ => rfl, by simp⟩
  | noHost hhealth => exact ⟨by simp, fun _ => rfl, by simp⟩
  | tls hhealth hsel => exact ⟨by simp, fun _ => rfl, by simp⟩
  | denied hhealth hsel hcode =>
    rcases hcode with rfl | rfl
    . exact ⟨by simp, fun _ => rfl, by simp⟩
    . exact ⟨by simp, fun _ => rfl, by simp⟩
  | authorized hhealth hsel hrun => exact remapRunAuthorized.picksBackend hrnd hrun

def picksOf (env : Env) (rp : RemapPath) (i : Nat) : Finset Nat :=
  (Finset.range (env.randMax + 1)).filter fun rnd => pickIndex env rp rnd = i

/--
Every request that is handed on has one of the targets of its path, and all targets of a path with not too
many of them are picked, all but the last by equally many random numbers.
-/
theorem remapRun_picksBackend (env : Env)
    : (∀ (db : RemapDb) (req : RemapRequest) (rnd : Nat) (code : RR) (res : RemapResult),
        rnd ≤ env.randMax → remapRun env db req rnd = .ok (code, res) → PicksBackend env rnd code res)
        ∧
      ∀ rp : RemapPath, rp.rpAddrs.length * (rp.rpAddrs.length - 1) ≤ env.randMax →
        ∀ i target, rp.rpAddrs[i]? = some target →
          (picksOf env rp i).Nonempty
            ∧
          (∀ rnd ∈ picksOf env rp i, remapPathPickTarget env rp rnd = some target)
            ∧
          (i + 1 < rp.rpAddrs.length →
            (picksOf env rp i).card = env.randMax / rp.rpAddrs.length + 1) := by
  constructor
  . intro db req rnd code res hrnd h
    exact remapRun.picksBackend hrnd h
  . intro rp hsq i target htarget
    have hi : i < rp.rpAddrs.length := by
      exact (List.getElem?_eq_some_iff.mp htarget).1
    refine ⟨?_, ?_, ?_⟩
    . rcases RangePick.exists_index_eq hsq hi with ⟨rnd, hrnd, hindex⟩
      refine ⟨rnd, ?_⟩
      rw [picksOf, Finset.mem_filter, Finset.mem_range]
      exact ⟨Nat.lt_succ_of_le hrnd, hindex⟩
    . intro rnd hrnd
      rw [picksOf, Finset.mem_filter] at hrnd
      rw [remapPathPickTarget_eq, hrnd.2]
      exact htarget
    . intro hi
      exact RangePick.card_index_eq hsq hi

-- Of two targets the first is picked by the lower half of the random numbers.
theorem remapRun_picksBackend_twoTargets
    : (∃ res, remapRun plainEnv (pathDb (servedPath none)) (getRequest (str "x")) 0 = .ok (.ok, res)
        ∧ PicksBackend plainEnv 0 .ok res)
        ∧
      (picksOf plainEnv
        { remapPathDefault with rpAddrs := [⟨str "10.0.0.1", 80⟩, ⟨str "10.0.0.2", 80⟩] } 0).card
        = 1073741824 := by
  constructor
  . rcases remapRun_servedPath none (str "x") (by decide) with ⟨res, hok⟩
    exact ⟨res, hok, (remapRun_picksBackend plainEnv).1 _ _ 0 _ _ (by decide) hok⟩
  . exact ((remapRun_picksBackend plainEnv).2 _ (by decide) 0 _ rfl).2.2 (by decide)
