import TsIngress.Tsapi.Impl.Compress
import TsIngress.Remap.Impl.Path
import TsIngress.Lib.ExceptFold

/-!
This module contains how often the response of a transaction is compressed. Every response that can be
compressed hooks a transform of its own, and a transaction may see several of them.
-/

def TxnEvent.brings (state : CompState) : TxnEvent → Bool
  | .cacheLookupComplete .hitFresh (some resp) => responseCanCompress state resp
  | .readResponseHdr (some resp) => responseCanCompress state resp
  | _ => false

def compressibleResponses (rctx : RequestCtx) (events : List TxnEvent) : Nat :=
  match rctx.rqCompState with
  | none => 0
  | some state => events.countP (TxnEvent.brings state)

def contentEncodings (hdr : MimeHdr) : Nat :=
  hdr.countP (·.named "Content-Encoding")

structure Hooked (rctx : RequestCtx) (n : Nat) (txn : TxnState) : Prop where
  state_eq : txn.rctx.rqCompState = rctx.rqCompState
  transforms_eq : txn.transforms = n
  transform_iff : txn.rctx.rqCompressTransform.isSome ↔ 0 < n
  state_some : 0 < n → txn.rctx.rqCompState.isSome

theorem Hooked.after_response {rctx : RequestCtx} {n : Nat} {txn : TxnState} {state : CompState}
    (h : Hooked rctx n txn) (hstate : rctx.rqCompState = some state) (resp : MimeHdr)
    : Hooked rctx (n + (responseCanCompress state resp).toNat) (compCheckResponse txn state resp) := by
  unfold compCheckResponse
  cases responseCanCompress state resp with
  | false => exact h
  | true =>
    constructor
    . exact h.state_eq
    . simp [h.transforms_eq]
    . simp
    . intro _
      simp [h.state_eq, hstate]

theorem compressibleResponses_singleton {rctx : RequestCtx} {state : CompState}
    (hstate : rctx.rqCompState = some state) (event : TxnEvent)
    : compressibleResponses rctx [event] = (event.brings state).toNat := by
  unfold compressibleResponses
  rw [hstate]
  dsimp only
  rw [List.countP_singleton]
  cases event.brings state with
  | false => rfl
  | true => rfl

theorem Hooked.of_rctx_eq {rctx : RequestCtx} {n : Nat} {txn txn' : TxnState} (h : Hooked rctx n txn)
    (hrctx : txn'.rctx = txn.rctx) (htransforms : txn'.transforms = txn.transforms)
    : Hooked rctx n txn' := by
  constructor
  . rw [hrctx]
    exact h.state_eq
  . rw [htransforms]
    exact h.transforms_eq
  . rw [hrctx]
    exact h.transform_iff
  . rw [hrctx]
    exact h.state_some

theorem compressibleResponses_eq_zero (rctx : RequestCtx) {event : TxnEvent}
    (h : ∀ state, event.brings state = false)
    : compressibleResponses rctx [event] = 0 := by
  unfold compressibleResponses
  cases rctx.rqCompState with
  | none => rfl
  | some state => simp [h state]

theorem Hooked.after_sendResponseHdr {rctx : RequestCtx} {n : Nat} {txn : TxnState} (h : Hooked rctx n txn)
    (clientResp : MimeHdr)
    : ∃ resp,
        tsiEvent txn (.sendResponseHdr clientResp) = .ok { txn with clientResp := resp }
          ∧
        (n = 0 → resp = if txn.rctx.rqCompress then compSetCompressHeaders clientResp else clientResp)
          ∧
        (0 < n → ∃ state, rctx.rqCompState = some state
          ∧ resp = compSetContentEncoding state
              (if txn.rctx.rqCompress then compSetCompressHeaders clientResp else clientResp)) := by
  dsimp only [tsiEvent]
  by_cases hn : 0 < n
  . have hsome := h.state_some hn
    rw [Option.isSome_iff_exists] at hsome
    rcases hsome with ⟨state, hstate⟩
    rw [if_pos (h.transform_iff.mpr hn), hstate, deref_some, Except.ok_bind]
    refine ⟨_, rfl, ?_, ?_⟩
    . intro hzero
      omega
    . intro _
      rw [h.state_eq] at hstate
      exact ⟨state, hstate, rfl⟩
  . rw [if_neg (fun hsome => hn (h.transform_iff.mp hsome))]
    refine ⟨_, rfl, ?_, ?_⟩
    . intro _
      rfl
    . intro hpos
      exact absurd hpos hn

theorem Hooked.after_event {rctx : RequestCtx} {n : Nat} {txn : TxnState} (h : Hooked rctx n txn)
    (event : TxnEvent)
    : ∃ txn', tsiEvent txn event = .ok txn' ∧ Hooked rctx (n + compressibleResponses rctx [event]) txn' := by
  cases event with
  | cacheLookupComplete status cachedResp =>
    dsimp only [tsiEvent]
    rw [h.state_eq]
    cases hstate : rctx.rqCompState with
    | none =>
      unfold compressibleResponses
      rw [hstate]
      exact ⟨txn, rfl, h⟩
    | some state =>
      refine ⟨_, rfl, ?_⟩
      rw [compressibleResponses_singleton hstate]
      unfold compCheckCachedResponse
      cases status with
      | hitFresh =>
        cases cachedResp with
        | none => exact h
        | some resp => exact h.after_response hstate resp
      | miss => exact h
      | hitStale => exact h
      | skipped => exact h
  | readResponseHdr serverResp =>
    dsimp only [tsiEvent]
    rw [h.state_eq]
    cases hstate : rctx.rqCompState with
    | none =>
      unfold compressibleResponses
      rw [hstate]
      exact ⟨txn, rfl, h⟩
    | some state =>
      refine ⟨_, rfl, ?_⟩
      rw [compressibleResponses_singleton hstate]
      unfold compCheckServerResponse
      cases serverResp with
      | none => exact h
      | some resp => exact h.after_response hstate resp
  | sendRequestHdr serverReq =>
    rw [compressibleResponses_eq_zero rctx (fun _ => rfl)]
    dsimp only [tsiEvent]
    split
    . exact ⟨_, rfl, h.of_rctx_eq rfl rfl⟩
    . exact ⟨_, rfl, h.of_rctx_eq rfl rfl⟩
  | sendResponseHdr clientResp =>
    rw [compressibleResponses_eq_zero rctx (fun _ => rfl)]
    rcases h.after_sendResponseHdr clientResp with ⟨resp, hresp, -⟩
    exact ⟨_, hresp, h.of_rctx_eq rfl rfl⟩

theorem compressibleResponses_cons (rctx : RequestCtx) (event : TxnEvent) (events : List TxnEvent)
    : compressibleResponses rctx (event :: events)
        =
      compressibleResponses rctx [event] + compressibleResponses rctx events := by
  unfold compressibleResponses
  cases rctx.rqCompState with
  | none => rfl
  | some state =>
    dsimp only
    rw [← List.countP_append, List.singleton_append]

theorem Hooked.after_events {rctx : RequestCtx} {n : Nat} {txn : TxnState} (h : Hooked rctx n txn)
    (events : List TxnEvent)
    : ∃ txn', tsiEvents txn events = .ok txn' ∧ Hooked rctx (n + compressibleResponses rctx events) txn' := by
  unfold tsiEvents
  induction events generalizing n txn with
  | nil =>
    refine ⟨txn, rfl, ?_⟩
    unfold compressibleResponses
    cases rctx.rqCompState with
    | none => exact h
    | some state => exact h
  | cons event events ih =>
    rcases h.after_event event with ⟨txn1, hstep, h1⟩
    rcases ih h1 with ⟨txn2, hrun, h2⟩
    refine ⟨txn2, ?_, ?_⟩
    . rw [List.foldlM_cons, hstep, Except.ok_bind]
      exact hrun
    . rw [compressibleResponses_cons, ← Nat.add_assoc]
      exact h2

theorem contentEncodings_valuesSet (hdr : MimeHdr) (field : Nat) (values : List Str)
    : contentEncodings (tsMimeHdrFieldValuesSet hdr field values) = contentEncodings hdr := by
  unfold contentEncodings tsMimeHdrFieldValuesSet
  induction hdr generalizing field with
  | nil => simp
  | cons f hdr ih =>
    cases field with
    | zero => rfl
    | succ field =>
      rw [List.modify_succ_cons, List.countP_cons, List.countP_cons, ih]

theorem contentEncodings_compSetCompressHeaders (hdr : MimeHdr)
    : contentEncodings (compSetCompressHeaders hdr) = contentEncodings hdr := by
  unfold compSetCompressHeaders
  split
  . apply contentEncodings_valuesSet
  . unfold contentEncodings tsMimeHdrFieldAppend
    rw [List.countP_append]
    rfl

theorem contentEncodings_compSetContentEncoding {state : CompState} (h : state.csType ≠ .none) (hdr : MimeHdr)
    : contentEncodings (compSetContentEncoding state hdr) = contentEncodings hdr + 1 := by
  have happend : ∀ value, contentEncodings (tsMimeHdrFieldAppend hdr "Content-Encoding" value)
      = contentEncodings hdr + 1 := by
    intro value
    unfold contentEncodings tsMimeHdrFieldAppend
    rw [List.countP_append]
    rfl
  unfold compSetContentEncoding
  split
  . contradiction
  . apply happend
  . apply happend
  . apply happend

theorem handleRemapCompress_csType {rp : RemapPath} {clientReq : MimeHdr} {state : CompState}
    (h : (handleRemapCompress rp clientReq).rqCompState = some state)
    : state.csType ≠ .none := by
  unfold handleRemapCompress tsiCompress at h
  split at h
  . dsimp only at h
    split at h
    . cases h
    . next hne =>
      cases h
      exact hne
  . cases h

theorem hooked_handleRemapCompress (rp : RemapPath) (clientReq : MimeHdr)
    : Hooked (handleRemapCompress rp clientReq) 0 { rctx := handleRemapCompress rp clientReq } := by
  have hnone : (handleRemapCompress rp clientReq).rqCompressTransform = none := by
    unfold handleRemapCompress tsiCompress
    split
    . dsimp only
      split
      . rfl
      . rfl
    . rfl
  constructor
  . rfl
  . rfl
  . simp [hnone]
  . intro h
    omega

-- The transaction has hooked at most one transform, and the response says so exactly if it has.
def CompressedOnce (rp : RemapPath) (clientReq : MimeHdr) (events : List TxnEvent) (clientResp : MimeHdr)
    : Prop :=
  ∃ txn,
    tsiEvents { rctx := handleRemapCompress rp clientReq } (events ++ [.sendResponseHdr clientResp]) = .ok txn
      ∧
    txn.transforms ≤ 1
      ∧
    contentEncodings txn.clientResp
      = contentEncodings clientResp + (if txn.transforms = 1 then 1 else 0)

theorem tsiEvents_sendResponseHdr (rp : RemapPath) (clientReq : MimeHdr) (events : List TxnEvent)
    (clientResp : MimeHdr)
    : ∃ txn,
        tsiEvents { rctx := handleRemapCompress rp clientReq } (events ++ [.sendResponseHdr clientResp])
          = .ok txn
          ∧
        txn.transforms = compressibleResponses (handleRemapCompress rp clientReq) events
          ∧
        contentEncodings txn.clientResp
          = contentEncodings clientResp + (if 0 < txn.transforms then 1 else 0) := by
  rcases (hooked_handleRemapCompress rp clientReq).after_events events with ⟨txn, hrun, hooked⟩
  rw [Nat.zero_add] at hooked
  rcases hooked.after_sendResponseHdr clientResp with ⟨resp, hsend, hzero, hpos⟩
  refine ⟨{ txn with clientResp := resp }, ?_, hooked.transforms_eq, ?_⟩
  . unfold tsiEvents at hrun ⊢
    rw [List.foldlM_append, hrun, Except.ok_bind, List.foldlM_cons, hsend]
    rfl
  . have hvary : contentEncodings
        (if txn.rctx.rqCompress then compSetCompressHeaders clientResp else clientResp)
        = contentEncodings clientResp := by
      split
      . apply contentEncodings_compSetCompressHeaders
      . rfl
    dsimp only
    rw [hooked.transforms_eq]
    split
    . next hcount =>
      rcases hpos hcount with ⟨state, hstate, rfl⟩
      rw [contentEncodings_compSetContentEncoding (handleRemapCompress_csType hstate), hvary]
    . next hcount =>
      rw [hzero (by omega), hvary]
      rfl

/--
A response is compressed at most once, unless the transaction sees more than one response that can be
compressed.
-/
theorem compressedOnce_iff (rp : RemapPath) (clientReq : MimeHdr) (events : List TxnEvent)
    (clientResp : MimeHdr)
    : CompressedOnce rp clientReq events clientResp
        ↔
      ∀ state, (handleRemapCompress rp clientReq).rqCompState = some state →
        events.countP (TxnEvent.brings state) ≤ 1 := by
  have hcount : compressibleResponses (handleRemapCompress rp clientReq) events ≤ 1
      ↔ ∀ state, (handleRemapCompress rp clientReq).rqCompState = some state →
          events.countP (TxnEvent.brings state) ≤ 1 := by
    unfold compressibleResponses
    cases (handleRemapCompress rp clientReq).rqCompState with
    | none => simp
    | some state => simp
  rw [← hcount]
  rcases tsiEvents_sendResponseHdr rp clientReq events clientResp with ⟨txn, hrun, htransforms, hencodings⟩
  rw [← htransforms]
  constructor
  . rintro ⟨txn', hrun', hone, -⟩
    rw [hrun] at hrun'
    cases hrun'
    exact hone
  . intro hone
    refine ⟨txn, hrun, hone, ?_⟩
    rw [hencodings]
    congr 1
    split
    . next hpos => rw [if_pos (by omega)]
    . next hzero => rw [if_neg (by omega)]

def gzipRequest : MimeHdr :=
  [⟨str "Accept-Encoding", [str "gzip"]⟩]

def cssResponse : MimeHdr :=
  [⟨str "Content-Type", [str "text/css"]⟩]

-- A redirect whose own answer can be compressed, as can the answer it leads to.
theorem not_compressedOnce
    : ¬ ∀ (rp : RemapPath) (clientReq : MimeHdr) (events : List TxnEvent) (clientResp : MimeHdr),
        CompressedOnce rp clientReq events clientResp := by
  intro honce
  rcases honce remapPathDefault gzipRequest
    [.readResponseHdr (some cssResponse), .readResponseHdr (some cssResponse)] cssResponse with
    ⟨txn, hrun, hone, -⟩
  rcases tsiEvents_sendResponseHdr remapPathDefault gzipRequest
    [.readResponseHdr (some cssResponse), .readResponseHdr (some cssResponse)] cssResponse with
    ⟨txn', hrun', htransforms, -⟩
  rw [hrun] at hrun'
  cases hrun'
  have htwo : compressibleResponses (handleRemapCompress remapPathDefault gzipRequest)
      [.readResponseHdr (some cssResponse), .readResponseHdr (some cssResponse)] = 2 := by
    decide +kernel
  omega
