import TsIngress.Api.Impl.Watcher
import TsIngress.Lib.ExceptFold
import TsIngress.Lib.LineSplit

/-!
This module contains the verification that the lines of a watch do not depend on the chunks in which
they are read.
-/

open LineSplit

namespace feWatchRead

theorem go_eq (line : σ → Str → Result σ) (buf : Str) (st : σ)
    : go line buf st
        =
      ((complete 10 buf).foldlM line st >>= fun st => .ok ⟨unfinished 10 buf, st⟩) := by
  induction buf using stream_induction (10 : UInt8) generalizing st with
  | hlast s h =>
    rw [complete_of_notMem h]
    rw [unfinished_of_notMem h]
    rw [go]
    rw [← strcut_eq_none_iff] at h
    split
    . rfl
    . next heq =>
      rw [h] at heq
      cases heq
  | hline s rest h ih =>
    rw [complete_cons h]
    rw [unfinished_cons h]
    rw [go]
    have hcut := strcut_append 10 s rest h
    split
    . next heq =>
      rw [hcut] at heq
      cases heq
    . next heq =>
      rw [hcut] at heq
      cases heq
      rw [List.foldlM_cons]
      rw [bind_assoc]
      simp only [ih]

theorem eq_foldlM (line : σ → Str → Result σ) (data : Str) (fe : WatchBuf σ) (hbuf : 10 ∉ fe.buf)
    : feWatchRead line data fe
        =
      ((complete 10 (fe.buf ++ data)).foldlM line fe.st >>= fun st =>
        .ok (data.length, ⟨unfinished 10 (fe.buf ++ data), st⟩)) := by
  unfold feWatchRead
  split
  . next h =>
    rw [List.length_eq_zero_iff] at h
    subst h
    rw [List.append_nil]
    rw [complete_of_notMem hbuf]
    rw [unfinished_of_notMem hbuf]
    rfl
  . rw [go_eq]
    rw [bind_assoc]
    rfl

end feWatchRead

def feWatchReads (line : σ → Str → Result σ) (chunks : List Str) (fe : WatchBuf σ) : Result (WatchBuf σ) :=
  chunks.foldlM (fun fe data => do return (← feWatchRead line data fe).2) fe

theorem feWatchReads_eq (line : σ → Str → Result σ) (chunks : List Str) (fe : WatchBuf σ)
    (hbuf : 10 ∉ fe.buf)
    : feWatchReads line chunks fe
        =
      ((complete 10 (fe.buf ++ chunks.flatten)).foldlM line fe.st >>= fun st =>
        .ok ⟨unfinished 10 (fe.buf ++ chunks.flatten), st⟩) := by
  induction chunks generalizing fe with
  | nil =>
    rw [List.flatten_nil, List.append_nil]
    rw [complete_of_notMem hbuf]
    rw [unfinished_of_notMem hbuf]
    rfl
  | cons data chunks ih =>
    unfold feWatchReads at ih ⊢
    rw [List.foldlM_cons]
    rw [feWatchRead.eq_foldlM line data fe hbuf]
    rw [List.flatten_cons, ← List.append_assoc]
    rw [complete_append (fe.buf ++ data), unfinished_append (fe.buf ++ data)]
    rw [List.foldlM_append]
    simp only [bind_assoc, Except.ok_bind, Except.pure_eq_ok]
    congr 1
    funext st
    apply ih
    apply notMem_unfinished

/--
However a stream is cut into chunks, `fe_watch_line` gets the lines that a newline ends, in their order
and each of them once, the buffer keeps what follows the last newline, and every call takes the whole of
its chunk. So two ways of cutting the stream end with the same cluster.
-/
theorem feWatchRead_framing (env : Env) (cfg : K8sConfig) (fe : FetcherCtx)
    : (∀ (σ : Type) (line : σ → Str → Result σ) (st : σ) (chunks : List Str) (data : Str),
        (feWatchReads line chunks (fetcherWatchMake st) >>= feWatchRead line data)
          =
        ((complete 10 (chunks ++ [data]).flatten).foldlM line st >>= fun st =>
          .ok (data.length, ⟨unfinished 10 (chunks ++ [data]).flatten, st⟩)))
        ∧
      (∀ chunks chunks' : List Str, chunks.flatten = chunks'.flatten →
        feWatchReads (feWatchLineAt env cfg) chunks (fetcherWatchMake fe)
          =
        feWatchReads (feWatchLineAt env cfg) chunks' (fetcherWatchMake fe)) := by
  have hnew : ∀ (σ : Type) (st : σ), 10 ∉ (fetcherWatchMake st).buf := by
    intro σ st
    exact List.not_mem_nil
  constructor
  . intro σ line st chunks data
    rw [feWatchReads_eq line chunks _ (hnew σ st)]
    rw [List.flatten_append, List.flatten_singleton]
    rw [complete_append chunks.flatten, unfinished_append chunks.flatten]
    rw [List.foldlM_append]
    rw [bind_assoc, bind_assoc]
    dsimp only [fetcherWatchMake]
    rw [List.nil_append]
    congr 1
    funext st
    apply feWatchRead.eq_foldlM
    apply notMem_unfinished
  . intro chunks chunks' h
    rw [feWatchReads_eq _ chunks _ (hnew _ fe)]
    rw [feWatchReads_eq _ chunks' _ (hnew _ fe)]
    rw [h]
