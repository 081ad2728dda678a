import Linhello.Daemon.Handlers
/-!
# Request framing

`handle` reads one line of at most 64 KiB, decodes it, trims it, parses it and answers
with one line. The reader counts bytes before it knows whether they are a whole line or
text, so an over-long line is cut and may still parse, and bytes that are not UTF-8 leave
before anything is answered.
-/

namespace Linhello.Daemon

open Common Effect Host

/-! ## Lines of bytes -/

def NEWLINE : UInt8 := 10

/-- Up to and including the first newline, or up to the end of the stream. -/
def readLine : Bytes → Bytes
  | [] => []
  | b :: rest => if b = NEWLINE then [b] else b :: readLine rest

theorem readLine_eq_nil_iff {stream : Bytes} : readLine stream = [] ↔ stream = [] := by
  cases stream with
  | nil => exact iff_of_true rfl rfl
  | cons b rest =>
      refine iff_of_false ?_ (List.cons_ne_nil _ _)
      rw [readLine]
      split <;> exact List.cons_ne_nil _ _

/-- A reader that stops after `n` bytes cuts the line. -/
theorem readLine_take (stream : Bytes) (n : Nat) :
    readLine (stream.take n) = (readLine stream).take n := by
  induction stream generalizing n with
  | nil => rw [List.take_nil, readLine, List.take_nil]
  | cons b rest ih =>
      cases n with
      | zero => rw [List.take_zero, List.take_zero, readLine]
      | succ n =>
          rw [List.take_succ_cons, readLine, readLine]
          by_cases hb : b = NEWLINE
          · rw [if_pos hb, if_pos hb, List.take_succ_cons, List.take_nil]
          · rw [if_neg hb, if_neg hb, List.take_succ_cons, ih]

/-- `String::from_utf8`. -/
def fromUtf8 (b : Bytes) : Option String := String.fromUTF8? ⟨b.toArray⟩

/-- `str::trim_end`. -/
def trimEnd (s : String) : String :=
  String.ofList (s.toList.reverse.dropWhile isWhiteSpace).reverse

/-! ## The connection -/

/-- `serde_json` on the types of the protocol. Its compact output has no raw newline. -/
structure SerdeJson where
  fromStr : String → Except String Request
  toVec : Response → Bytes
  toVec_line : ∀ r, NEWLINE ∉ toVec r

def MAX_REQUEST_BYTES : Nat := 64 * 1024

def malformed (e : String) : Response := .error ("malformed request: " ++ e)

def responseLine (J : SerdeJson) (response : Response) : Bytes := J.toVec response ++ [NEWLINE]

/-- `handle` on a stream whose write side the client has closed: the bytes it writes, or
the error it leaves with before it wrote any. -/
def handle (J : SerdeJson) (dispatch : Request → Proc Response) (stream : Bytes) :
    Proc (Except String Bytes) :=
  match fromUtf8 (readLine (stream.take MAX_REQUEST_BYTES)) with
  | none => pure (.error "stream did not contain valid UTF-8")
  | some line =>
      if readLine (stream.take MAX_REQUEST_BYTES) = [] then pure (.ok [])
      else do
        let response ← (match J.fromStr (trimEnd line) with
          | .ok req => dispatch req
          | .error e => pure (malformed e) : Proc Response)
        pure (.ok (responseLine J response))

/-- The request a stream is: its complete first line, of at most 64 KiB. -/
def requestOf (J : SerdeJson) (stream : Bytes) : Option Request :=
  if stream = [] ∨ MAX_REQUEST_BYTES < (readLine stream).length then none
  else do
    let line ← fromUtf8 (readLine stream)
    (J.fromStr (trimEnd line)).toOption

/-- What a connection returned and did is what the stream asks for: the request is
dispatched once, and what is no request is answered with one error and changes nothing. -/
def AnsweredAs {W : Type} (S : Semantics host W) (J : SerdeJson)
    (dispatch : Request → Proc Response)
    (stream : Bytes) (w : W) (r : Except String Bytes) (w' : W) : Prop :=
  match requestOf J stream with
  | some req => ∃ response, Exec S (dispatch req) w response w' ∧ r = .ok (responseLine J response)
  | none => w' = w ∧ (stream ≠ [] → ∃ msg, r = .ok (responseLine J (.error msg)) ∧
      (responseLine J (.error msg)).count NEWLINE = 1)

/-- The framing holds whatever the handlers behind `dispatch` do. -/
def Framed (J : SerdeJson) (stream : Bytes) : Prop :=
  ∀ (W : Type) (S : Semantics host W) (dispatch : Request → Proc Response) (w : W)
    (r : Except String Bytes) (w' : W), Exec S (handle J dispatch stream) w r w' →
    AnsweredAs S J dispatch stream w r w'

/-- The bytes that are read are text, and where they are only the head of a line the
text is no request. -/
def Legible (J : SerdeJson) (stream : Bytes) : Prop :=
  ∃ line, fromUtf8 ((readLine stream).take MAX_REQUEST_BYTES) = some line ∧
    (MAX_REQUEST_BYTES < (readLine stream).length → ∃ e, J.fromStr (trimEnd line) = .error e)

theorem responseLine_count (J : SerdeJson) (response : Response) :
    (responseLine J response).count NEWLINE = 1 := by
  rw [responseLine, List.count_append, List.count_eq_zero.2 (J.toVec_line response)]
  rfl

theorem handle_eq {J : SerdeJson} {dispatch : Request → Proc Response} {stream : Bytes}
    {line : String} (hline : fromUtf8 ((readLine stream).take MAX_REQUEST_BYTES) = some line)
    (hne : stream ≠ []) :
    handle J dispatch stream = (match J.fromStr (trimEnd line) with
      | .ok req => dispatch req
      | .error e => pure (malformed e)) >>= fun response =>
        pure (.ok (responseLine J response)) := by
  have hread : readLine (stream.take MAX_REQUEST_BYTES) ≠ [] := by
    rw [Ne, readLine_eq_nil_iff, List.take_eq_nil_iff]
    rintro (hzero | hnil)
    · cases hzero
    · exact hne hnil
  rw [← readLine_take] at hline
  rw [handle, hline]
  exact if_neg hread

theorem take_readLine {stream : Bytes} (h : ¬ MAX_REQUEST_BYTES < (readLine stream).length) :
    (readLine stream).take MAX_REQUEST_BYTES = readLine stream :=
  List.take_of_length_le (not_lt.1 h)

theorem framed_of_legible {J : SerdeJson} {stream : Bytes} (h : Legible J stream) :
    Framed J stream := by
  obtain ⟨line, hline, hcut⟩ := h
  intro W S dispatch w r w' hexec
  by_cases hnil : stream = []
  · have hnone : requestOf J stream = none := if_pos (.inl hnil)
    subst hnil
    rw [AnsweredAs, hnone]
    have hhandle : handle J dispatch [] = pure (.ok []) := by
      rw [handle]
      rfl
    rw [hhandle] at hexec
    exact ⟨hexec.2, fun hne => absurd rfl hne⟩
  · rw [handle_eq hline hnil] at hexec
    obtain ⟨response, v, hresponse, hr, rfl⟩ := exec_bind.1 hexec
    by_cases hlong : MAX_REQUEST_BYTES < (readLine stream).length
    · have hnone : requestOf J stream = none := if_pos (.inr hlong)
      obtain ⟨e, he⟩ := hcut hlong
      rw [he] at hresponse
      obtain ⟨rfl, rfl⟩ := hresponse
      rw [AnsweredAs, hnone]
      exact ⟨rfl, fun _ => ⟨_, hr, responseLine_count J _⟩⟩
    · have hrequest : requestOf J stream = (J.fromStr (trimEnd line)).toOption := by
        rw [take_readLine hlong] at hline
        rw [requestOf, if_neg (not_or.2 ⟨hnil, hlong⟩), hline]
        rfl
      rw [AnsweredAs, hrequest]
      cases hparsed : J.fromStr (trimEnd line) with
      | ok req =>
          rw [hparsed] at hresponse
          exact ⟨response, hresponse, hr⟩
      | error e =>
          rw [hparsed] at hresponse
          obtain ⟨rfl, rfl⟩ := hresponse
          exact ⟨rfl, fun _ => ⟨_, hr, responseLine_count J _⟩⟩

/-! ## Streams that are not framed -/

def flips : Semantics host Bool := fun w _ _ w' => w' = !w

/-- A handler that changes something and answers with an error. -/
def touching : Request → Proc Response := fun _ => do
  let _ ← perform .rgbDevice
  pure (.error "")

theorem legible_of_framed {J : SerdeJson} {stream : Bytes} (h : Framed J stream) :
    Legible J stream := by
  cases hline : fromUtf8 ((readLine stream).take MAX_REQUEST_BYTES) with
  | none =>
      -- the connection ends without an answer
      exfalso
      have hhandle : handle J touching stream =
          pure (.error "stream did not contain valid UTF-8") := by
        rw [handle, readLine_take, hline]
      have hexec : Exec flips (handle J touching stream) false
          (.error "stream did not contain valid UTF-8") false := by
        rw [hhandle]
        exact ⟨rfl, rfl⟩
      have hanswered := h Bool flips touching _ _ _ hexec
      have hne : stream ≠ [] := by
        rintro rfl
        cases hline
      have hnone : requestOf J stream = none := by
        rw [requestOf]
        by_cases hlong : MAX_REQUEST_BYTES < (readLine stream).length
        · exact if_pos (.inr hlong)
        · rw [take_readLine hlong] at hline
          rw [if_neg (not_or.2 ⟨hne, hlong⟩), hline]
          rfl
      rw [AnsweredAs, hnone] at hanswered
      obtain ⟨msg, hmsg, -⟩ := hanswered.2 hne
      cases hmsg
  | some line =>
      refine ⟨line, hline, fun hlong => ?_⟩
      cases hparsed : J.fromStr (trimEnd line) with
      | error e => exact ⟨e, rfl⟩
      | ok req =>
          -- the head of the line is dispatched
          exfalso
          have hne : stream ≠ [] := by
            rintro rfl
            cases hlong
          have hexec : Exec flips (handle J touching stream) false
              (.ok (responseLine J (.error ""))) true := by
            rw [handle_eq hline hne, hparsed]
            exact ⟨"", true, rfl, rfl, rfl⟩
          have hanswered := h Bool flips touching _ _ _ hexec
          have hnone : requestOf J stream = none := if_pos (.inr hlong)
          rw [AnsweredAs, hnone] at hanswered
          cases hanswered.1

/-- A stream gets the answer it asks for exactly if what is read of it is text and, cut
from a longer line, no request. -/
theorem framed_iff (J : SerdeJson) (stream : Bytes) : Framed J stream ↔ Legible J stream :=
  ⟨legible_of_framed, framed_of_legible⟩

/-- One byte that is not text, and a newline. -/
theorem not_framed : ¬ ∀ (J : SerdeJson) (stream : Bytes), Framed J stream := by
  intro hall
  have hframed := hall ⟨fun _ => .error "expected value", fun _ => [], fun _ => List.not_mem_nil⟩
    [0xff, NEWLINE]
  obtain ⟨line, hline, -⟩ := legible_of_framed hframed
  have hnone : fromUtf8 ((readLine [0xff, NEWLINE]).take MAX_REQUEST_BYTES) = none := by
    decide +kernel
  rw [hnone] at hline
  cases hline

end Linhello.Daemon
