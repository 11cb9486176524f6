import TsIngress.Tsapi.Impl.Synth

/-!
This module contains the bytes of a made up response against the form of a response in HTTP.
-/

structure HeaderField where
  name : Str
  value : Str
  clean : ∀ c ∈ name ++ value, c ≠ 0 ∧ c ≠ 13 ∧ c ≠ 10

structure Reply where
  status : Int
  reason : Str
  headers : List HeaderField
  body : Option Str
  reason_text : 0 ∉ reason
  body_text : ∀ text, body = some text → 0 ∉ text

def crlf : Str := str "\r\n"

def HeaderField.line (field : HeaderField) : Str :=
  field.name ++ str ": " ++ field.value ++ crlf

namespace Reply

def fieldLines (reply : Reply) : Str :=
  str "HTTP/1.1 " ++ formatInt reply.status ++ str " " ++ reply.reason ++ crlf
    ++ reply.headers.flatMap HeaderField.line

def contentLength (reply : Reply) : Str :=
  str "Content-Length: " ++ formatInt (reply.body.getD []).length ++ crlf

/--
The form of a response: a status line, a line for every header field, the length of the body, an empty line
and the body.
-/
def response (reply : Reply) : Str :=
  reply.fieldLines ++ reply.contentLength ++ crlf ++ reply.body.getD []

def synth (reply : Reply) : Synth :=
  let sy := synthNew reply.status reply.reason
  let sy := reply.headers.foldl (fun sy field => synthAddHeader sy field.name field.value) sy
  synthSetBody sy reply.body

structure WellFormed (reply : Reply) : Prop where
  whole : reply.response.length ≤ syBufsz - 1 → reply.synth.sent = reply.response
  longer : syBufsz - 1 < reply.response.length →
    reply.synth.syBufpos ≤ syBufsz ∧ reply.synth.sent <+: reply.response

end Reply

theorem syBufsz_pos : 0 < syBufsz := by
  decide

theorem syPrintf_sent (sy : Synth) (text : Str)
    : (syPrintf sy text).sent = sy.sent ++ ClipBuffer.tail (syBufsz - sy.syBufpos) 0 text := by
  have hpos := sy.syBufpos_le
  have hmin : (if text.length > syBufsz - sy.syBufpos then syBufsz - sy.syBufpos else text.length)
      = min text.length (syBufsz - sy.syBufpos) := by
    split
    . omega
    . omega
  unfold Synth.sent syPrintf vsnprintf ClipBuffer.tail
  dsimp only
  rw [hmin]
  split
  . next hleft =>
    rw [hleft, Nat.min_zero, Nat.add_zero, List.append_nil]
  . next hleft =>
    rw [ClipBuffer.take_store, snprintf]
    . rw [sy.syBuf_length]
      exact hpos
    . simp only [snprintf, List.length_append, List.length_take, List.length_singleton]
      omega

def Prints (sy : Synth) (text : Str) : Prop :=
  sy.sent = ClipBuffer.clip syBufsz 0 text

theorem Prints.print {sy : Synth} {text : Str} (h : Prints sy text) (more : Str)
    : Prints (syPrintf sy more) (text ++ more) := by
  have hpos : sy.syBufpos = sy.sent.length := by
    rw [Synth.sent, List.length_take, sy.syBuf_length, Nat.min_eq_left sy.syBufpos_le]
  unfold Prints at h ⊢
  rw [syPrintf_sent, hpos, h, ← ClipBuffer.clip_append syBufsz_pos]

theorem Prints.addHeader {sy : Synth} {text : Str} (h : Prints sy text) (field : HeaderField)
    : Prints (synthAddHeader sy field.name field.value) (text ++ field.line) := by
  have hprints := ((h.print (field.name ++ str ": ")).print field.value).print crlf
  rw [HeaderField.line]
  simp only [List.append_assoc] at hprints ⊢
  exact hprints

theorem Prints.addHeaders {headers : List HeaderField} {sy : Synth} {text : Str}
    (h : Prints sy text)
    : Prints (headers.foldl (fun sy field => synthAddHeader sy field.name field.value) sy)
        (text ++ headers.flatMap HeaderField.line) := by
  induction headers generalizing sy text with
  | nil => simpa using h
  | cons field headers ih =>
    rw [List.foldl_cons, List.flatMap_cons, ← List.append_assoc]
    exact ih (h.addHeader field)

theorem prints_synthNew (status : Int) (reason : Str)
    : Prints (synthNew status reason) (str "HTTP/1.1 " ++ formatInt status ++ str " " ++ reason ++ crlf) := by
  unfold synthNew
  dsimp only
  rw [← List.nil_append (str "HTTP/1.1 " ++ formatInt status ++ str " " ++ reason ++ crlf)]
  apply Prints.print
  rfl

def bodyText (body : Option Str) : Str :=
  match body with
  | some body =>
    str "Content-Length: " ++ formatInt ((body.length : Int).bmod 0x100000000) ++ crlf ++ (crlf ++ body)
  | none => str "Content-Length: 0\r\n"

theorem Prints.setBody {sy : Synth} {text : Str} (h : Prints sy text) (body : Option Str)
    : Prints (synthSetBody sy body) (text ++ bodyText body) := by
  cases body with
  | none =>
    rw [synthSetBody, bodyText]
    exact h.print _
  | some body =>
    rw [synthSetBody, bodyText, ← List.append_assoc]
    exact (h.print _).print _

theorem Reply.sent_synth (reply : Reply)
    : reply.synth.sent = ClipBuffer.clip syBufsz 0 (reply.fieldLines ++ bodyText reply.body) := by
  exact ((prints_synthNew reply.status reply.reason).addHeaders).setBody reply.body

theorem ofNat_ne_zero_of_isDigit {c : Char} (h : c.isDigit = true) : UInt8.ofNat c.toNat ≠ 0 := by
  have hval : c.toNat = c.val.toNat := rfl
  simp only [Char.isDigit, Bool.and_eq_true, decide_eq_true_eq, ge_iff_le, UInt32.le_iff_toNat_le] at h
  intro hzero
  have hmod := congrArg UInt8.toNat hzero
  simp at h hmod
  omega

theorem formatInt_text (n : Int) : 0 ∉ formatInt n := by
  have hdigits : ∀ m : Nat, ∀ c ∈ m.repr.toList, UInt8.ofNat c.toNat ≠ 0 := by
    intro m c hc
    rw [Nat.toList_repr] at hc
    exact ofNat_ne_zero_of_isDigit (Nat.isDigit_of_mem_toDigits (by omega) (by omega) hc)
  intro hmem
  unfold formatInt str at hmem
  rw [List.mem_map] at hmem
  rcases hmem with ⟨c, hc, hzero⟩
  cases n with
  | ofNat m => exact hdigits m c hc hzero
  | negSucc m =>
    have htext : (toString (Int.negSucc m)).toList = '-' :: (m + 1).repr.toList := by
      simp [toString, Int.repr]
    rw [htext, List.mem_cons] at hc
    rcases hc with rfl | hc
    . exact absurd hzero (by decide)
    . exact hdigits (m + 1) c hc hzero

namespace Reply

variable (reply : Reply)

theorem response_text : 0 ∉ reply.response := by
  have hliteral : 0 ∉ str "HTTP/1.1 " ∧ 0 ∉ str " " ∧ 0 ∉ crlf ∧ 0 ∉ str "Content-Length: " ∧ 0 ∉ str ": " := by
    decide +kernel
  rcases hliteral with ⟨hhttp, hblank, hcrlf, hlength, hcolon⟩
  have hfields : 0 ∉ reply.headers.flatMap HeaderField.line := by
    intro hmem
    rw [List.mem_flatMap] at hmem
    rcases hmem with ⟨field, -, hmem⟩
    have hclean : 0 ∉ field.name ++ field.value := by
      intro hzero
      exact (field.clean 0 hzero).1 rfl
    simp only [List.mem_append, not_or] at hclean
    simp only [HeaderField.line, List.mem_append, hclean, hcolon, hcrlf, or_self] at hmem
  have hbody : 0 ∉ reply.body.getD [] := by
    cases hbody : reply.body with
    | none => simp
    | some text => exact reply.body_text text hbody
  simp only [response, fieldLines, contentLength, List.mem_append, hhttp, hblank, hcrlf, hlength, hfields, hbody,
    reply.reason_text, formatInt_text, or_self, not_false_eq_true]

theorem not_prefix_of_full (h : syBufsz ≤ (reply.fieldLines ++ bodyText reply.body).length)
    : ¬ reply.synth.sent <+: reply.response := by
  intro hprefix
  apply reply.response_text
  apply hprefix.subset
  rw [sent_synth]
  exact ClipBuffer.mem_clip_of_le h 0

theorem response_of_body {text : Str} (h : reply.body = some text) (hlength : text.length < 0x80000000)
    : reply.response = reply.fieldLines ++ bodyText reply.body := by
  have hmod : (text.length : Int).bmod 0x100000000 = text.length := by
    apply Int.bmod_eq_of_le
    . omega
    . omega
  unfold response contentLength bodyText
  rw [h, Option.getD_some]
  dsimp only
  rw [hmod]
  simp only [List.append_assoc]

theorem response_of_no_body (h : reply.body = none)
    : reply.response = reply.fieldLines ++ bodyText reply.body ++ crlf := by
  have hzero : str "Content-Length: " ++ formatInt (0 : Nat) ++ crlf = str "Content-Length: 0\r\n" := by
    decide +kernel
  unfold response contentLength bodyText
  rw [h, Option.getD_none, List.length_nil, hzero, List.append_nil]

theorem wellFormed_iff_of_body {text : Str} (h : reply.body = some text)
    : reply.WellFormed ↔ reply.response.length ≤ syBufsz - 1 := by
  have hbody : text.length ≤ reply.response.length ∧ text.length ≤ (bodyText reply.body).length := by
    simp only [response, bodyText, h, Option.getD_some, List.length_append]
    omega
  have hsize : syBufsz = 16384 := rfl
  constructor
  . intro hwell
    by_contra hlong
    rw [Nat.not_le] at hlong
    apply reply.not_prefix_of_full _ (hwell.longer hlong).2
    by_cases hlength : text.length < 0x80000000
    . rw [← reply.response_of_body h hlength]
      omega
    . rw [List.length_append]
      omega
  . intro hfits
    have hresponse := reply.response_of_body h (by omega)
    refine ⟨fun _ => ?_, fun hlong => by omega⟩
    rw [sent_synth, ← hresponse, ClipBuffer.clip_of_lt (by omega)]

theorem wellFormed_iff_of_no_body (h : reply.body = none)
    : reply.WellFormed ↔ syBufsz ≤ reply.response.length ∧ reply.response.length ≤ syBufsz + 1 := by
  have hresponse := reply.response_of_no_body h
  have hlength : reply.response.length = (reply.fieldLines ++ bodyText reply.body).length + 2 := by
    rw [hresponse, List.length_append]
    rfl
  have hpos := syBufsz_pos
  constructor
  . intro hwell
    have hlong : syBufsz ≤ reply.response.length := by
      by_contra hshort
      have hsent := hwell.whole (by omega)
      rw [sent_synth, ClipBuffer.clip_of_lt (by omega)] at hsent
      have hsame := congrArg List.length hsent
      omega
    refine ⟨hlong, ?_⟩
    by_contra hover
    exact reply.not_prefix_of_full (by omega) (hwell.longer (by omega)).2
  . rintro ⟨hlong, hshort⟩
    refine ⟨fun hfits => by omega, fun _ => ⟨reply.synth.syBufpos_le, ?_⟩⟩
    rw [sent_synth, ClipBuffer.clip_of_lt (by omega), hresponse]
    exact List.prefix_append _ _

end Reply

theorem synth_wellFormed_iff (reply : Reply)
    : reply.WellFormed
        ↔
      (reply.body ≠ none ∧ reply.response.length ≤ syBufsz - 1)
        ∨
      (reply.body = none ∧ syBufsz ≤ reply.response.length ∧ reply.response.length ≤ syBufsz + 1) := by
  cases hbody : reply.body with
  | none => simp [reply.wellFormed_iff_of_no_body hbody]
  | some text => simp [reply.wellFormed_iff_of_body hbody]

def aliveReply : Reply where
  status := 200
  reason := str "OK"
  headers := [⟨str "Content-Type", str "text/plain;charset=UTF-8", by decide +kernel⟩]
  body := none
  reason_text := by decide +kernel
  body_text := by simp

theorem not_synth_wellFormed : ¬ aliveReply.WellFormed := by
  have hlength : aliveReply.response.length = 78 := by
    decide +kernel
  rw [aliveReply.wellFormed_iff_of_no_body rfl, hlength]
  decide
