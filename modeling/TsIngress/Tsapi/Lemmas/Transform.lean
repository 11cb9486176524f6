import TsIngress.Tsapi.Impl.Transform
import TsIngress.BasicLemmas
import Mathlib.Logic.Relation

/-!
This module contains the verification of the transform: whatever pieces the body comes in and its compressed form goes
out in, a client that decodes what it gets as the header says has the body.
-/

def contentCoding : CompType → Str
  | .none => []
  | .gzip => str "gzip"
  | .deflate => str "deflate"
  | .brotli => str "br"

theorem compSetContentEncoding_coding {csType : CompType} (h : csType ≠ .none) (types : Hash Unit)
    (clientResp : MimeHdr)
    : compSetContentEncoding ⟨csType, types⟩ clientResp
        =
      tsMimeHdrFieldAppend clientResp "Content-Encoding" (contentCoding csType) := by
  cases csType with
  | none => exact absurd rfl h
  | gzip => rfl
  | deflate => rfl
  | brotli => rfl

-- zlib and brotli are lossless for a client that knows how to decode the three codings.
structure Codecs.Lossless (c : Codecs) (decode : Str → List UInt8 → Option (List UInt8)) where
  gzip : StreamCodec (gzipCall c) (decode (str "gzip"))
  gzip_init : gzip.opened (gzipInit c) [] []
  deflate : StreamCodec (gzipCall c) (decode (str "deflate"))
  deflate_init : deflate.opened (deflateInit c) [] []
  brotli : StreamCodec (brCall c) (decode (str "br"))
  brotli_init : brotli.opened (brInit c) [] []

namespace Codecs.Lossless

variable {c : Codecs} {decode : Str → List UInt8 → Option (List UInt8)} (l : c.Lossless decode)

def Opened (csType : CompType) (coder : Option (Coder c)) (xs ys : List UInt8) : Prop :=
  match csType, coder with
  | .gzip, some (.zstream stream) => l.gzip.opened stream xs ys
  | .deflate, some (.zstream stream) => l.deflate.opened stream xs ys
  | .brotli, some (.brotli state) => l.brotli.opened state xs ys
  | _, _ => False

def Closed (csType : CompType) (coder : Option (Coder c)) (xs ys : List UInt8) : Prop :=
  match csType, coder with
  | .gzip, some (.zstream stream) => l.gzip.closed stream xs ys
  | .deflate, some (.zstream stream) => l.deflate.closed stream xs ys
  | .brotli, some (.brotli state) => l.brotli.closed state xs ys
  | _, _ => False

theorem opened_compressInit {csType : CompType} (h : csType ≠ .none)
    : l.Opened csType (compressInit c csType).csCoder [] [] := by
  cases csType with
  | none => exact absurd rfl h
  | gzip => exact l.gzip_init
  | deflate => exact l.deflate_init
  | brotli => exact l.brotli_init

theorem decode_of_closed {csType : CompType} {coder : Option (Coder c)} {xs ys : List UInt8}
    (h : l.Closed csType coder xs ys)
    : decode (contentCoding csType) ys = some xs := by
  unfold Closed at h
  split at h
  . exact l.gzip.decode_closed h
  . exact l.deflate.decode_closed h
  . exact l.brotli.decode_closed h
  . exact h.elim

end Codecs.Lossless

structure CompConn.Wrote {c : Codecs} (conn : CompConn c) (r : CompConn c × Nat) : Prop where
  csOutputLen : r.1.csOutputLen = conn.csOutputLen
  finished : r.1.finished = conn.finished
  puts : ∃ out, r.1.csOutputVio = conn.csOutputVio.put out ∧ r.2 = out.length

theorem CompConn.wrote_stop {c : Codecs} (conn : CompConn c) {σ : Type} {coder : σ → Coder c} {state : σ}
    {inbuf : List UInt8} {run : EncodeRun σ UInt8 UInt8} (h : (conn.start state inbuf).Puts run)
    : conn.Wrote (conn.stop coder run) := by
  rcases h with ⟨out, houtput, hwritten⟩
  refine ⟨rfl, rfl, out, houtput, ?_⟩
  unfold stop
  rw [hwritten]
  exact Nat.zero_add _

theorem take_avail_in (blk : IOBlock) : blk.data.take (UInt32.ofNat blk.data.length).toNat = blk.data := by
  apply List.take_of_length_le
  rw [UInt32.toNat_ofNat_of_lt' blk.lt]

section

variable {c : Codecs} {decode : Str → List UInt8 → Option (List UInt8)} (l : c.Lossless decode) (blocks : OutBlocks)
  {csType : CompType} {conn : CompConn c} {xs : List UInt8}

theorem gzipProduce_settles {coding : Str} (codec : StreamCodec (gzipCall c) (decode coding)) {stream : c.ZStream}
    (h : codec.opened stream xs conn.csOutputVio.stream) (blk : IOBlock)
    : ∃ run, Settles (fun fuel => gzipProduce c blocks fuel conn stream blk.data) (conn.stop .zstream run)
        ∧ codec.opened run.state (xs ++ blk.data) run.output.stream ∧ conn.Wrote (conn.stop .zstream run) := by
  rcases codec.process_settles blocks.pos (show codec.opened (conn.start stream blk.data).state xs _ from h) with
    ⟨run, hrun, hopened, hputs⟩
  refine ⟨run, ?_, hopened, conn.wrote_stop hputs⟩
  unfold gzipProduce
  rw [take_avail_in]
  exact hrun.bind (.const _)

theorem gzipFinish_settles {coding : Str} (codec : StreamCodec (gzipCall c) (decode coding)) {stream : c.ZStream}
    (h : codec.opened stream xs conn.csOutputVio.stream)
    : ∃ run, Settles (fun fuel => gzipFinish c blocks fuel conn stream) (conn.stop .zstream run)
        ∧ codec.closed run.state xs run.output.stream ∧ conn.Wrote (conn.stop .zstream run) := by
  rcases codec.finish_settles blocks.pos (show (conn.start stream []).input = [] from rfl) h with
    ⟨run, hrun, hclosed, hputs⟩
  exact ⟨run, hrun.bind (.const _), hclosed, conn.wrote_stop hputs⟩

theorem brProduce_settles {coding : Str} (codec : StreamCodec (brCall c) (decode coding)) {state : c.BrotliState}
    (h : codec.opened state xs conn.csOutputVio.stream) (blk : IOBlock)
    : ∃ run, Settles (fun fuel => brProduce c blocks fuel conn state blk.data) (conn.stop .brotli run)
        ∧ codec.opened run.state (xs ++ blk.data) run.output.stream ∧ conn.Wrote (conn.stop .brotli run) := by
  rcases codec.process_settles blocks.pos (show codec.opened (conn.start state blk.data).state xs _ from h) with
    ⟨run, hrun, hopened, hputs⟩
  refine ⟨run, ?_, hopened, conn.wrote_stop hputs⟩
  unfold brProduce
  simp only [if_neg blk.ne_nil]
  exact hrun.bind (.const _)

theorem brFinish_settles {coding : Str} (codec : StreamCodec (brCall c) (decode coding)) {state : c.BrotliState}
    (h : codec.opened state xs conn.csOutputVio.stream)
    : ∃ run, Settles (fun fuel => brFinish c blocks fuel conn state) (conn.stop .brotli run)
        ∧ codec.closed run.state xs run.output.stream ∧ conn.Wrote (conn.stop .brotli run) := by
  rcases codec.finish_settles blocks.pos (show (conn.start state []).input = [] from rfl) h with
    ⟨run, hrun, hclosed, hputs⟩
  exact ⟨run, hrun.bind (.const _), hclosed, conn.wrote_stop hputs⟩

theorem csProduce_settles (h : l.Opened csType conn.csCoder xs conn.csOutputVio.stream) (blk : IOBlock)
    : ∃ r, Settles (fun fuel => csProduce c blocks fuel conn blk.data) r
        ∧ l.Opened csType r.1.csCoder (xs ++ blk.data) r.1.csOutputVio.stream ∧ conn.Wrote r := by
  unfold Codecs.Lossless.Opened at h
  unfold csProduce
  split at h
  . next hcoder =>
    rw [hcoder]
    rcases gzipProduce_settles blocks l.gzip h blk with ⟨run, hrun, hopened, hwrote⟩
    exact ⟨_, hrun, hopened, hwrote⟩
  . next hcoder =>
    rw [hcoder]
    rcases gzipProduce_settles blocks l.deflate h blk with ⟨run, hrun, hopened, hwrote⟩
    exact ⟨_, hrun, hopened, hwrote⟩
  . next hcoder =>
    rw [hcoder]
    rcases brProduce_settles blocks l.brotli h blk with ⟨run, hrun, hopened, hwrote⟩
    exact ⟨_, hrun, hopened, hwrote⟩
  . exact h.elim

theorem csFinish_settles (h : l.Opened csType conn.csCoder xs conn.csOutputVio.stream)
    : ∃ r, Settles (fun fuel => csFinish c blocks fuel conn) r
        ∧ l.Closed csType r.1.csCoder xs r.1.csOutputVio.stream ∧ conn.Wrote r := by
  unfold Codecs.Lossless.Opened at h
  unfold csFinish
  split at h
  . next hcoder =>
    rw [hcoder]
    rcases gzipFinish_settles blocks l.gzip h with ⟨run, hrun, hclosed, hwrote⟩
    exact ⟨_, hrun, hclosed, hwrote⟩
  . next hcoder =>
    rw [hcoder]
    rcases gzipFinish_settles blocks l.deflate h with ⟨run, hrun, hclosed, hwrote⟩
    exact ⟨_, hrun, hclosed, hwrote⟩
  . next hcoder =>
    rw [hcoder]
    rcases brFinish_settles blocks l.brotli h with ⟨run, hrun, hclosed, hwrote⟩
    exact ⟨_, hrun, hclosed, hwrote⟩
  . exact h.elim

end

-- The output of a transform that has taken `taken`: it is still without a length, or it is finished and has one.
structure CompConn.Delivers {c : Codecs} {decode : Str → List UInt8 → Option (List UInt8)} (l : c.Lossless decode)
    (csType : CompType) (input : InputVio) (conn : CompConn c) : Prop where
  counted : conn.csOutputVio.Counted
  csOutputLen : conn.csOutputLen = conn.csOutputVio.stream.length
  opened : conn.finished = false →
    l.Opened csType conn.csCoder input.taken conn.csOutputVio.stream ∧ conn.csOutputVio.limit = int64Max
  closed : conn.finished = true →
    input.buffer = none ∧ l.Closed csType conn.csCoder input.taken conn.csOutputVio.stream
      ∧ conn.csOutputVio.limit = conn.csOutputLen

namespace CompConn.Delivers

variable {c : Codecs} {decode : Str → List UInt8 → Option (List UInt8)} {l : c.Lossless decode} {csType : CompType}
  {input : InputVio} {conn : CompConn c}

theorem init (h : csType ≠ .none) (htaken : input.taken = []) : Delivers l csType input (compressInit c csType) := by
  refine ⟨⟨rfl, Nat.zero_le _⟩, rfl, ?_, nofun⟩
  intro _
  rw [htaken]
  exact ⟨l.opened_compressInit h, rfl⟩

theorem pump (h : Delivers l csType input conn) (n : Nat)
    : Delivers l csType input { conn with csOutputVio := conn.csOutputVio.pump n } := by
  refine ⟨h.counted.pump n, ?_, ?_, ?_⟩
  . rw [conn.csOutputVio.stream_pump]
    exact h.csOutputLen
  . rw [conn.csOutputVio.stream_pump]
    exact h.opened
  . rw [conn.csOutputVio.stream_pump]
    exact h.closed

theorem congr {input' : InputVio} (h : Delivers l csType input conn) (htaken : input'.taken = input.taken)
    (hbuffer : input.buffer = none → input'.buffer = none)
    : Delivers l csType input' conn := by
  refine ⟨h.counted, h.csOutputLen, ?_, ?_⟩
  . rw [htaken]
    exact h.opened
  . intro hfinished
    rw [htaken]
    exact ⟨hbuffer (h.closed hfinished).1, (h.closed hfinished).2⟩

theorem not_finished (h : Delivers l csType input conn) (hbuffer : input.buffer ≠ none) : conn.finished = false := by
  rw [← Bool.not_eq_true]
  intro hfinished
  exact hbuffer (h.closed hfinished).1

theorem wrote {r : CompConn c × Nat} (h : Delivers l csType input conn) (hwrote : conn.Wrote r)
    : r.1.csOutputVio.Counted ∧ r.1.csOutputLen + r.2 = r.1.csOutputVio.stream.length
        ∧ r.1.csOutputVio.limit = conn.csOutputVio.limit := by
  rcases hwrote.puts with ⟨out, houtput, hout⟩
  rw [houtput, hwrote.csOutputLen, hout, h.csOutputLen, Outlet.stream_put, List.length_append]
  exact ⟨h.counted.put out, rfl, rfl⟩

theorem produce (h : Delivers l csType input conn) (hbuffer : input.buffer ≠ none) (blocks : OutBlocks) (blk : IOBlock)
    : ∃ r, Settles (fun fuel => csProduce c blocks fuel conn blk.data) r
        ∧ Delivers l csType (input.consume blk) { r.1 with csOutputLen := r.1.csOutputLen + r.2 } := by
  have hfinished := h.not_finished hbuffer
  rcases h.opened hfinished with ⟨hopened, hlimit⟩
  rcases csProduce_settles l blocks hopened blk with ⟨r, hr, hopened', hwrote⟩
  rcases h.wrote hwrote with ⟨hcounted, hlen, hlimit'⟩
  refine ⟨r, hr, hcounted, hlen, fun _ => ⟨hopened', hlimit'.trans hlimit⟩, ?_⟩
  intro hfinished'
  have hsame := hwrote.finished
  rw [hfinished] at hsame
  rw [hsame] at hfinished'
  cases hfinished'

theorem finish (h : Delivers l csType input conn) (hbuffer : input.buffer = none) (hfinished : conn.finished = false)
    (blocks : OutBlocks)
    : ∃ r, Settles (fun fuel => csFinish c blocks fuel conn) r
        ∧ Delivers l csType input
            { r.1 with
              csOutputLen := r.1.csOutputLen + r.2
              csOutputVio := r.1.csOutputVio.bound (r.1.csOutputLen + r.2)
              finished := true } := by
  rcases csFinish_settles l blocks (h.opened hfinished).1 with ⟨r, hr, hclosed, hwrote⟩
  rcases h.wrote hwrote with ⟨hcounted, hlen, -⟩
  have hdone : r.1.csOutputVio.done ≤ r.1.csOutputLen + r.2 := by
    rw [hlen, ← hcounted.length_sent]
    exact r.1.csOutputVio.sent_prefix_stream.length_le
  exact ⟨r, hr, hcounted.bound hdone, hlen, nofun, fun _ => ⟨hbuffer, hclosed, rfl⟩⟩

end CompConn.Delivers

def bodyOf (blks : List IOBlock) : List UInt8 :=
  blks.flatMap IOBlock.data

def InputVio.unread (vio : InputVio) : List UInt8 :=
  bodyOf (vio.buffer.getD [])

theorem bodyOf_concat (blks : List IOBlock) (blk : IOBlock) : bodyOf (blks ++ [blk]) = bodyOf blks ++ blk.data := by
  simp [bodyOf]

structure CompressLoop.Took {c : Codecs} {decode : Str → List UInt8 → Option (List UInt8)} (l : c.Lossless decode)
    (csType : CompType) (vio : InputVio) (blks done : List IOBlock) (s : CompressLoop c) : Prop where
  delivers : s.conn.Delivers l csType s.inputVio
  buffer : s.inputVio.buffer = some (blks.drop done.length)
  nbytes : s.inputVio.nbytes = vio.nbytes
  ndone : s.inputVio.ndone = s.inputVio.taken.length
  taken : s.inputVio.taken = vio.taken ++ bodyOf done
  toread : s.toread = s.inputVio.nbytes - s.inputVio.ndone

namespace Transform

variable {c : Codecs} {decode : Str → List UInt8 → Option (List UInt8)} {l : c.Lossless decode} {blocks : OutBlocks}
  {t t' : Transform c} {csType : CompType}

theorem compressBlock_settles {vio : InputVio} {blks done : List IOBlock} {s : CompressLoop c}
    (h : s.Took l csType vio blks done) (blk : IOBlock)
    : ∃ s', Settles (fun fuel => compressBlock c blocks fuel s blk) s' ∧ s'.Took l csType vio blks (done ++ [blk]) := by
  have hbuffer : s.inputVio.buffer ≠ none := by
    rw [h.buffer]
    simp
  rcases h.delivers.produce hbuffer blocks blk with ⟨r, hr, hdelivers⟩
  refine ⟨_, hr.bind (.const _), hdelivers, ?_, h.nbytes, ?_, ?_, ?_⟩
  . simp [InputVio.consume, h.buffer]
  . simp [InputVio.consume, h.ndone]
  . rw [bodyOf_concat, ← List.append_assoc, ← h.taken]
    rfl
  . rw [h.toread]
    simp only [InputVio.consume]
    omega

theorem foldlM_compressBlock (blocks : OutBlocks) {conn : CompConn c} {vio : InputVio} {blks : List IOBlock}
    (hconn : conn.Delivers l csType vio) (hndone : vio.ndone = vio.taken.length) (hbuffer : vio.buffer = some blks)
    : ∃ s, Settles (fun fuel => blks.foldlM (compressBlock c blocks fuel) ⟨conn, vio, vio.nbytes - vio.ndone⟩) s
        ∧ s.Took l csType vio blks blks := by
  have hstart : CompressLoop.Took l csType vio blks [] ⟨conn, vio, vio.nbytes - vio.ndone⟩ := by
    refine ⟨hconn, hbuffer, rfl, hndone, ?_, rfl⟩
    simp [bodyOf]
  exact Settles.foldlM (P := CompressLoop.Took l csType vio blks) (fun _ _ blk hs => compressBlock_settles hs blk) blks
    hstart

structure Compresses (l : c.Lossless decode) (csType : CompType) (t : Transform c) : Prop where
  csType_ne : csType ≠ .none
  csType_eq : t.csType = csType
  ndone : t.csInputVio.ndone = t.csInputVio.taken.length
  fresh : t.csConn = none → t.csInputVio.taken = []
  delivers : ∀ conn, t.csConn = some conn → conn.Delivers l csType t.csInputVio

namespace Compresses

theorem delivers_conn (h : t.Compresses l csType)
    : CompConn.Delivers l csType t.csInputVio
        (match t.csConn with
          | none => compressInit c t.csType
          | some conn => conn) := by
  cases hconn : t.csConn with
  | none =>
    rw [h.csType_eq]
    exact .init h.csType_ne (h.fresh hconn)
  | some conn => exact h.delivers conn hconn

theorem compressDo_buffer (blocks : OutBlocks) (h : t.Compresses l csType) {blks : List IOBlock}
    (hbuffer : t.csInputVio.buffer = some blks)
    : ∃ conn vio upcall, Settles (fun fuel => compressDo c blocks fuel t)
          { t with csConn := some conn, csInputVio := vio, upcalls := t.upcalls ++ [upcall] }
        ∧ Compresses l csType { t with csConn := some conn, csInputVio := vio, upcalls := t.upcalls ++ [upcall] }
        ∧ vio.buffer = some [] ∧ vio.nbytes = t.csInputVio.nbytes ∧ vio.taken = t.csInputVio.taken ++ bodyOf blks
        ∧ upcall = if vio.nbytes = vio.taken.length then .writeComplete else .writeReady := by
  rcases foldlM_compressBlock blocks h.delivers_conn h.ndone hbuffer with ⟨s, hs, htook⟩
  refine ⟨s.conn, s.inputVio, if s.toread ≠ 0 then .writeReady else .writeComplete, ?_, ?_, ?_, htook.nbytes,
    htook.taken, ?_⟩
  . unfold compressDo
    simp only [hbuffer]
    exact hs.bind (.const _)
  . refine ⟨h.csType_ne, h.csType_eq, htook.ndone, ?_, ?_⟩
    . intro hnone
      cases hnone
    . intro conn hconn
      cases hconn
      exact htook.delivers
  . rw [htook.buffer, List.drop_length]
  . rw [htook.toread, htook.ndone]
    split
    . next hne => rw [if_neg (by omega)]
    . next heq => rw [if_pos (by omega)]

theorem finished_conn
    : CompConn.finished
        (match t.csConn with
          | none => compressInit c t.csType
          | some conn => conn)
        =
      t.finished := by
  unfold Transform.finished
  cases t.csConn with
  | none => rfl
  | some conn => rfl

theorem compressDo_noBuffer (blocks : OutBlocks) (h : t.Compresses l csType) (hbuffer : t.csInputVio.buffer = none)
    (hfinished : t.finished = false)
    : ∃ conn, Settles (fun fuel => compressDo c blocks fuel t) { t with csConn := some conn }
        ∧ Compresses l csType { t with csConn := some conn } ∧ conn.finished = true := by
  rcases h.delivers_conn.finish hbuffer (finished_conn.trans hfinished) blocks with ⟨r, hr, hdelivers⟩
  refine ⟨{ r.1 with
    csOutputLen := r.1.csOutputLen + r.2
    csOutputVio := r.1.csOutputVio.bound (r.1.csOutputLen + r.2)
    finished := true }, ?_, ⟨h.csType_ne, h.csType_eq, h.ndone, ?_, ?_⟩, rfl⟩
  . unfold compressDo
    simp only [hbuffer]
    exact hr.bind (.const _)
  . intro hnone
    cases hnone
  . intro conn hconn
    cases hconn
    exact hdelivers

theorem compressDo_settles (blocks : OutBlocks) (h : t.Compresses l csType) (hfinished : t.finished = false)
    : ∃ t', Settles (fun fuel => compressDo c blocks fuel t) t' ∧ t'.Compresses l csType := by
  cases hbuffer : t.csInputVio.buffer with
  | none =>
    rcases h.compressDo_noBuffer blocks hbuffer hfinished with ⟨conn, hsettles, hcompresses, -⟩
    exact ⟨_, hsettles, hcompresses⟩
  | some blks =>
    rcases h.compressDo_buffer blocks hbuffer with ⟨conn, vio, upcall, hsettles, hcompresses, -⟩
    exact ⟨_, hsettles, hcompresses⟩

theorem transformEvent_settles (blocks : OutBlocks) (h : t.Compresses l csType) (e : TransformEvent)
    (herror : e = .error → t.csConn ≠ none) (honce : t.finished = true → e.compresses = false)
    : ∃ t', Settles (fun fuel => transformEvent c blocks fuel t e) t' ∧ t'.Compresses l csType := by
  have hagain : e.compresses = true → t.finished = false := by
    intro hcompresses
    rw [← Bool.not_eq_true]
    intro hfinished
    rw [honce hfinished] at hcompresses
    cases hcompresses
  unfold transformEvent
  by_cases hclosed : t.closed = true
  . simp only [if_pos hclosed]
    exact ⟨t, .const t, h⟩
  . simp only [if_neg hclosed]
    cases e with
    | error =>
      dsimp only
      split
      . next hconn => exact absurd hconn (herror rfl)
      . exact ⟨_, .const _, h.csType_ne, h.csType_eq, h.ndone, h.fresh, h.delivers⟩
    | writeComplete => exact ⟨_, .const _, h.csType_ne, h.csType_eq, h.ndone, h.fresh, h.delivers⟩
    | writeReady => exact h.compressDo_settles blocks (hagain rfl)
    | immediate => exact h.compressDo_settles blocks (hagain rfl)

theorem event (h : t.Compresses l csType) {e : TransformEvent} (honce : t.finished = true → e.compresses = false)
    (hevent : Settles (fun fuel => transformEvent c blocks fuel t e) t')
    : t'.Compresses l csType := by
  by_cases herror : e = .error → t.csConn ≠ none
  . rcases h.transformEvent_settles blocks e herror honce with ⟨t'', hsettles, hcompresses⟩
    cases hevent.unique hsettles
    exact hcompresses
  . -- Only a transform that is closed lives through an error before `compress_init`.
    rw [Classical.not_imp, not_not] at herror
    rcases herror with ⟨rfl, hconn⟩
    rcases hevent.exists with ⟨fuel, hevent⟩
    simp only [transformEvent, hconn] at hevent
    split at hevent
    . cases hevent
      exact h
    . cases hevent

theorem step (h : t.Compresses l csType) (hstep : Step blocks t t') : t'.Compresses l csType := by
  cases hstep with
  | event e honce hevent => exact h.event honce hevent
  | @write blks blk hbuffer =>
    refine ⟨h.csType_ne, h.csType_eq, h.ndone, h.fresh, ?_⟩
    intro conn hconn
    refine (h.delivers conn hconn).congr rfl ?_
    intro hnone
    rw [hbuffer] at hnone
    cases hnone
  | announce n =>
    refine ⟨h.csType_ne, h.csType_eq, h.ndone, h.fresh, ?_⟩
    intro conn hconn
    exact (h.delivers conn hconn).congr rfl id
  | shutdown =>
    refine ⟨h.csType_ne, h.csType_eq, h.ndone, h.fresh, ?_⟩
    intro conn hconn
    exact (h.delivers conn hconn).congr rfl fun _ => rfl
  | @pump conn n hconn hshut =>
    refine ⟨h.csType_ne, h.csType_eq, h.ndone, ?_, ?_⟩
    . intro hnone
      cases hnone
    . intro conn' hconn'
      cases hconn'
      exact (h.delivers conn hconn).pump n
  | close => exact ⟨h.csType_ne, h.csType_eq, h.ndone, h.fresh, h.delivers⟩

end Compresses

def hooked (c : Codecs) (csType : CompType) (nbytes : Int) : Transform c :=
  { csType := csType, csInputVio := { nbytes := nbytes } }

theorem compresses_of_reachable {nbytes : Int} (l : c.Lossless decode) (htype : csType ≠ .none)
    (h : Relation.ReflTransGen (Step blocks) (hooked c csType nbytes) t)
    : t.Compresses l csType := by
  induction h with
  | refl =>
    refine ⟨htype, rfl, rfl, fun _ => rfl, ?_⟩
    intro conn hconn
    cases hconn
  | tail _ hstep ih => exact ih.step hstep

namespace Compresses

theorem transformEvent_compresses (hlive : t.closed = false) {e : TransformEvent} (he : e.compresses = true)
    (fuel : Nat)
    : transformEvent c blocks fuel t e = compressDo c blocks fuel t := by
  cases e with
  | error => cases he
  | writeComplete => cases he
  | writeReady => simp [transformEvent, hlive]
  | immediate => simp [transformEvent, hlive]

theorem compressDo_step (hlive : t.closed = false) (hfinished : t.finished = false)
    (hsettles : Settles (fun fuel => compressDo c blocks fuel t) t')
    : Step blocks t t' := by
  apply Step.event .immediate
  . intro htrue
    rw [hfinished] at htrue
    cases htrue
  . simp only [transformEvent_compresses hlive (e := .immediate) rfl]
    exact hsettles

theorem exists_complete_of_finished (blocks : OutBlocks) (h : t.Compresses l csType) (hshut : t.outputShut = false)
    {conn : CompConn c} (hconn : t.csConn = some conn) (hfinished : conn.finished = true)
    : ∃ t' conn', Relation.ReflTransGen (Step blocks) t t' ∧ t'.csConn = some conn'
        ∧ t'.csInputVio.taken = t.csInputVio.taken ∧ conn'.csOutputVio.done = conn'.csOutputLen
        ∧ decode (contentCoding csType) conn'.csOutputVio.sent = some t'.csInputVio.taken := by
  have hdelivers := h.delivers conn hconn
  rcases hdelivers.closed hfinished with ⟨-, hclosed, hlimit⟩
  have hlength : conn.csOutputVio.limit = conn.csOutputVio.stream.length := hlimit.trans hdelivers.csOutputLen
  have hdone := hdelivers.counted.done_pump hlength.le
  have hsent := (hdelivers.counted.pump conn.csOutputVio.limit).sent_eq_stream
    (by rw [Outlet.stream_pump]; exact hlength) hdone
  rw [Outlet.stream_pump] at hsent
  refine ⟨{ t with csConn := some { conn with csOutputVio := conn.csOutputVio.pump conn.csOutputVio.limit } }, _,
    .single (.pump conn.csOutputVio.limit hconn hshut), rfl, rfl, hdone.trans hlimit, ?_⟩
  dsimp only
  rw [hsent]
  exact l.decode_of_closed hclosed

theorem exists_complete_of_shutdown (blocks : OutBlocks) (h : t.Compresses l csType) (hlive : t.closed = false)
    (hshut : t.outputShut = false) (hbuffer : t.csInputVio.buffer = none)
    : ∃ t' conn, Relation.ReflTransGen (Step blocks) t t' ∧ t'.csConn = some conn
        ∧ t'.csInputVio.taken = t.csInputVio.taken ∧ conn.csOutputVio.done = conn.csOutputLen
        ∧ decode (contentCoding csType) conn.csOutputVio.sent = some t'.csInputVio.taken := by
  cases hfinished : t.finished with
  | true =>
    unfold Transform.finished at hfinished
    split at hfinished
    . cases hfinished
    . next conn hconn => exact h.exists_complete_of_finished blocks hshut hconn hfinished
  | false =>
    rcases h.compressDo_noBuffer blocks hbuffer hfinished with ⟨conn, hsettles, hcompresses, hclosed⟩
    rcases hcompresses.exists_complete_of_finished blocks hshut rfl hclosed with ⟨t', conn', hrun, hrest⟩
    exact ⟨t', conn', .head (compressDo_step hlive hfinished hsettles) hrun, hrest⟩

theorem exists_complete (blocks : OutBlocks) (h : t.Compresses l csType) (hlive : t.closed = false)
    (hshut : t.outputShut = false)
    : ∃ t' conn, Relation.ReflTransGen (Step blocks) t t' ∧ t'.csConn = some conn
        ∧ t'.csInputVio.taken = t.csInputVio.taken ++ t.csInputVio.unread
        ∧ conn.csOutputVio.done = conn.csOutputLen
        ∧ decode (contentCoding csType) conn.csOutputVio.sent = some t'.csInputVio.taken := by
  unfold InputVio.unread
  cases hbuffer : t.csInputVio.buffer with
  | none =>
    rcases h.exists_complete_of_shutdown blocks hlive hshut hbuffer with ⟨t', conn, hrun, hconn, htaken, hrest⟩
    refine ⟨t', conn, hrun, hconn, ?_, hrest⟩
    rw [htaken]
    simp [bodyOf]
  | some blks =>
    have hfinished : t.finished = false := by
      rw [← finished_conn]
      apply h.delivers_conn.not_finished
      rw [hbuffer]
      simp
    rcases h.compressDo_buffer blocks hbuffer with ⟨conn, vio, upcall, hsettles, hcompresses, -, -, htaken, -⟩
    have hshutdown := hcompresses.step (Step.shutdown : Step blocks _ _)
    rcases hshutdown.exists_complete_of_shutdown blocks hlive hshut rfl with
      ⟨t', conn', hrun, hconn', htaken', hrest⟩
    refine ⟨t', conn', .head (compressDo_step hlive hfinished hsettles) (.head .shutdown hrun), hconn', ?_, hrest⟩
    rw [htaken', htaken]
    rfl

theorem decode_sent (h : t.Compresses l csType) {conn : CompConn c} (hconn : t.csConn = some conn)
    (hlimit : conn.csOutputVio.limit ≠ int64Max) (hdone : conn.csOutputVio.done = conn.csOutputVio.limit)
    : decode (contentCoding csType) conn.csOutputVio.sent = some t.csInputVio.taken := by
  have hdelivers := h.delivers conn hconn
  cases hfinished : conn.finished with
  | false => exact absurd (hdelivers.opened hfinished).2 hlimit
  | true =>
    rcases hdelivers.closed hfinished with ⟨-, hclosed, hlength⟩
    rw [hdelivers.counted.sent_eq_stream (hlength.trans hdelivers.csOutputLen) hdone]
    exact l.decode_of_closed hclosed

end Compresses

/--
Whatever pieces a body comes in and goes out in, the handler comes to an end, takes all that is there, and tells the
writer that it is done exactly when it has as much as the writer has announced. When all is sent, the client has the
body if it decodes what it gets as the header says, and it can always come to that.
-/
theorem transform_lossless (c : Codecs) (decode : Str → List UInt8 → Option (List UInt8)) (l : c.Lossless decode)
    (blocks : OutBlocks) (csType : CompType) (htype : csType ≠ .none) (nbytes : Int) (t : Transform c)
    (h : Relation.ReflTransGen (Step blocks) (hooked c csType nbytes) t)
    : (∀ types clientResp, compSetContentEncoding ⟨csType, types⟩ clientResp
          = tsMimeHdrFieldAppend clientResp "Content-Encoding" (contentCoding csType))
        ∧
      (∀ e, (e = .error → t.csConn ≠ none) → (t.finished = true → e.compresses = false) →
        ∃ t', Settles (fun fuel => transformEvent c blocks fuel t e) t')
        ∧
      (t.closed = false → ∀ blks, t.csInputVio.buffer = some blks → ∀ e, e = .writeReady ∨ e = .immediate →
        ∃ t' upcall, Settles (fun fuel => transformEvent c blocks fuel t e) t'
          ∧ t'.csInputVio.taken = t.csInputVio.taken ++ bodyOf blks
          ∧ t'.upcalls = t.upcalls ++ [upcall]
          ∧ (upcall = .writeComplete ↔ t.csInputVio.nbytes = t'.csInputVio.taken.length))
        ∧
      (∀ conn, t.csConn = some conn → conn.csOutputVio.limit ≠ int64Max →
        conn.csOutputVio.done = conn.csOutputVio.limit →
        decode (contentCoding csType) conn.csOutputVio.sent = some t.csInputVio.taken)
        ∧
      (t.closed = false → t.outputShut = false →
        ∃ t' conn, Relation.ReflTransGen (Step blocks) t t' ∧ t'.csConn = some conn
          ∧ conn.csOutputVio.done = conn.csOutputLen
          ∧ decode (contentCoding csType) conn.csOutputVio.sent
              = some (t.csInputVio.taken ++ t.csInputVio.unread)) := by
  have hcompresses := compresses_of_reachable l htype h
  refine ⟨compSetContentEncoding_coding htype, ?_, ?_, ?_, ?_⟩
  . intro e herror honce
    rcases hcompresses.transformEvent_settles blocks e herror honce with ⟨t', hsettles, -⟩
    exact ⟨t', hsettles⟩
  . intro hlive blks hbuffer e he
    have hturn : e.compresses = true := by
      rcases he with rfl | rfl
      . rfl
      . rfl
    rcases hcompresses.compressDo_buffer blocks hbuffer with
      ⟨conn, vio, upcall, hsettles, -, -, hnbytes, htaken, hupcall⟩
    refine ⟨{ t with csConn := some conn, csInputVio := vio, upcalls := t.upcalls ++ [upcall] }, upcall, ?_, htaken,
      rfl, ?_⟩
    . simp only [Compresses.transformEvent_compresses hlive hturn]
      exact hsettles
    . rw [hupcall, ← hnbytes]
      simp
  . intro conn hconn hlimit hdone
    exact hcompresses.decode_sent hconn hlimit hdone
  . intro hlive hshut
    rcases hcompresses.exists_complete blocks hlive hshut with ⟨t', conn, hrun, hconn, htaken, hdone, hdecode⟩
    rw [htaken] at hdecode
    exact ⟨t', conn, hrun, hconn, hdone, hdecode⟩

def frame (xs : List UInt8) : List UInt8 :=
  xs.flatMap fun x => [1, x]

def unframe : List UInt8 → Option (List UInt8)
  | [0] => some []
  | 1 :: x :: ys => (unframe ys).map (x :: ·)
  | _ => none

theorem unframe_frame (xs : List UInt8) : unframe (frame xs ++ [0]) = some xs := by
  induction xs with
  | nil => rfl
  | cons x xs ih =>
    have hframe : frame (x :: xs) ++ [0] = 1 :: x :: (frame xs ++ [0]) := rfl
    rw [hframe, unframe, ih]
    rfl

structure Framing where
  pending : List UInt8
  ended : Bool

def Framing.process (s : Framing) (input : List UInt8) (olen : Nat) : Framing × List UInt8 :=
  (⟨(s.pending ++ frame input).drop olen, s.ended⟩, (s.pending ++ frame input).take olen)

def Framing.tail (s : Framing) : List UInt8 :=
  if s.ended then s.pending else s.pending ++ [0]

def Framing.finish (s : Framing) (olen : Nat) : Framing × List UInt8 :=
  (⟨s.tail.drop olen, true⟩, s.tail.take olen)

-- Libraries that put a byte in front of each byte and another one at the end.
def framed : Codecs where
  ZStream := Framing
  deflateInit2 _ _ _ := ⟨[], false⟩
  deflate s flush input olen :=
    match flush with
    | .noFlush =>
      ⟨if s.pending ++ input = [] then .bufError else .ok, (s.process input olen).1, input.length,
        (s.process input olen).2⟩
    | .finish => ⟨if s.tail.length ≤ olen then .streamEnd else .ok, (s.finish olen).1, 0, (s.finish olen).2⟩
  BrotliState := Framing
  brotliEncoderCreateInstance _ := ⟨[], false⟩
  brotliEncoderCompressStream s op input olen :=
    match op with
    | .process => ⟨true, (s.process input olen).1, input.length, (s.process input olen).2⟩
    | .finish => ⟨true, (s.finish olen).1, 0, (s.finish olen).2⟩
  brotliEncoderHasMoreOutput s := !s.pending.isEmpty

theorem length_frame (xs : List UInt8) : (frame xs).length = 2 * xs.length := by
  induction xs with
  | nil => rfl
  | cons x xs ih =>
    have hframe : frame (x :: xs) = 1 :: x :: frame xs := rfl
    rw [hframe, List.length_cons, List.length_cons, ih, List.length_cons]
    omega

theorem frame_append (xs ys : List UInt8) : frame (xs ++ ys) = frame xs ++ frame ys :=
  List.flatMap_append

theorem Framing.length_tail (s : Framing) : s.tail.length = s.pending.length + (!s.ended).toNat := by
  unfold tail
  cases s.ended with
  | true => rfl
  | false => exact List.length_append

theorem Framing.append_tail {s : Framing} {xs ys : List UInt8}
    (h : (s.ended = false ∧ ys ++ s.pending = frame xs) ∨ (s.ended = true ∧ ys ++ s.pending = frame xs ++ [0]))
    : ys ++ s.tail = frame xs ++ [0] := by
  unfold tail
  rcases h with ⟨hended, hys⟩ | ⟨hended, hys⟩
  . rw [hended, if_neg Bool.false_ne_true, ← List.append_assoc, hys]
  . rw [hended, if_pos rfl, hys]

theorem exists_codec_of_framing {call : EncodeOp → Framing → List UInt8 → Nat → Encoding Framing UInt8}
    (hprocess : ∀ s input room, (call .process s input room).state = (s.process input room).1
      ∧ (call .process s input room).out = (s.process input room).2
      ∧ (call .process s input room).consumed = input.length)
    (hmore : ∀ s input room, (call .process s input room).again = true → s.pending ++ input ≠ [])
    (hfinish : ∀ s input room, (call .finish s input room).state = (s.finish room).1
      ∧ (call .finish s input room).out = (s.finish room).2)
    (hagain : ∀ s input room, (call .finish s input room).again = true ↔ room < s.tail.length)
    : ∃ codec : StreamCodec call unframe, codec.opened ⟨[], false⟩ [] [] := by
  refine ⟨{
    opened := fun s xs ys => s.ended = false ∧ ys ++ s.pending = frame xs
    closing := fun s xs ys => s.ended = true ∧ ys ++ s.pending = frame xs ++ [0]
    closed := fun _ xs ys => ys = frame xs ++ [0]
    left := fun s input => s.pending.length + 2 * input.length + (!s.ended).toNat
    fits := ?_, process_opened := ?_, process_again := ?_, process_last := ?_, finish_again := ?_, finish_last := ?_
    decode_closed := ?_ }, rfl, rfl⟩
  . intro op s input room
    cases op with
    | process =>
      rw [(hprocess s input room).2.1]
      exact List.length_take_le _ _
    | finish =>
      rw [(hfinish s input room).2]
      exact List.length_take_le _ _
  . rintro s xs ys input room ⟨hopen, hys⟩ -
    rcases hprocess s input room with ⟨hstate, hout, hconsumed⟩
    rw [hstate, hout, hconsumed, List.take_length]
    refine ⟨hopen, ?_⟩
    unfold Framing.process
    rw [List.append_assoc, List.take_append_drop, ← List.append_assoc, hys, frame_append]
  . intro s xs ys input room _ hroom hgoes
    have hne := List.length_pos_of_ne_nil (hmore s input room hgoes)
    rcases hprocess s input room with ⟨hstate, -, hconsumed⟩
    rw [List.length_append] at hne
    rw [hstate, hconsumed, List.drop_length]
    simp only [Framing.process, List.length_drop, List.length_append, length_frame, List.length_nil]
    omega
  . intro s xs ys input room _ _ _
    exact (hprocess s input room).2.2.ge
  . intro s xs ys room hphase hroom hgoes
    rw [hagain] at hgoes
    rcases hfinish s [] room with ⟨hstate, hout⟩
    rw [hstate, hout]
    refine ⟨⟨rfl, ?_⟩, ?_⟩
    . unfold Framing.finish
      rw [List.append_assoc, List.take_append_drop]
      exact Framing.append_tail hphase
    . rw [s.length_tail] at hgoes
      simp only [Framing.finish, List.length_drop, s.length_tail, List.length_nil, Bool.not_true, Bool.toNat_false]
      omega
  . intro s xs ys room hphase _ hends
    have hle : s.tail.length ≤ room := by
      rw [← not_lt, ← hagain s [] room, hends]
      simp
    rw [(hfinish s [] room).2]
    unfold Framing.finish
    rw [List.take_of_length_le hle]
    exact Framing.append_tail hphase
  . rintro s xs ys rfl
    exact unframe_frame xs

theorem lossless_framed : Nonempty (framed.Lossless fun _ ys => unframe ys) := by
  have hzlib : ∃ codec : StreamCodec (gzipCall framed) unframe, codec.opened ⟨[], false⟩ [] [] := by
    apply exists_codec_of_framing
    . intro s input room
      exact ⟨rfl, rfl, rfl⟩
    . intro s input room hagain hnil
      simp [gzipCall, framed, hnil] at hagain
    . intro s input room
      exact ⟨rfl, rfl⟩
    . intro s input room
      by_cases hle : s.tail.length ≤ room
      . simp [gzipCall, framed, hle]
      . simp [gzipCall, framed, hle, not_le.mp hle]
  have hbrotli : ∃ codec : StreamCodec (brCall framed) unframe, codec.opened ⟨[], false⟩ [] [] := by
    apply exists_codec_of_framing
    . intro s input room
      exact ⟨rfl, rfl, rfl⟩
    . intro s input room hagain
      simp [brCall, framed] at hagain
    . intro s input room
      exact ⟨rfl, rfl⟩
    . intro s input room
      simp [brCall, framed, Framing.finish]
  rcases hzlib with ⟨zlib, hzlib⟩
  rcases hbrotli with ⟨brotli, hbrotli⟩
  exact ⟨⟨zlib, hzlib, zlib, hzlib, brotli, hbrotli⟩⟩

theorem transform_lossless_framed
    : ∃ (blocks : OutBlocks) (t t' : Transform framed) (conn : CompConn framed),
        Relation.ReflTransGen (Step blocks) (hooked framed .gzip 5) t
          ∧ t.csInputVio.unread = str "hello" ∧ Relation.ReflTransGen (Step blocks) t t' ∧ t'.csConn = some conn
          ∧ unframe conn.csOutputVio.sent = some (str "hello") := by
  obtain ⟨l⟩ := lossless_framed
  let blk : IOBlock := ⟨str "hello", by decide, by decide⟩
  let blocks : OutBlocks := ⟨fun _ => 2, by simp, by simp⟩
  have hrun : Relation.ReflTransGen (Step blocks) (hooked framed .gzip 5) _ := .single (.write blk rfl)
  rcases (transform_lossless framed _ l blocks .gzip (by decide) 5 _ hrun).2.2.2.2 rfl rfl with
    ⟨t', conn, hrun', hconn, -, hdecode⟩
  refine ⟨blocks, _, t', conn, hrun, ?_, hrun', hconn, ?_⟩
  . simp [InputVio.unread, bodyOf, blk]
  . simpa [InputVio.unread, bodyOf, hooked, blk] using hdecode

end Transform
