import GbEmu.Server.Events
import GbEmu.Server.Requests

/-!
The responses of a connection as a client takes them apart: header lines up to a blank
one, then as many bytes as the header says. A file is sent with one byte more than its
header says, so only responses without a file leave the connection in step.
-/

namespace GbEmu.GameServer

open Messages GbEmu.Configuration Text Util

/-! ## The client -/

def contentLengthField : Line := ascii "Content-Length: "

/-- The number in the header, or none. -/
def contentLength (headers : List Line) : Nat :=
  match headers.find? (contentLengthField <+: ·) with
  | none => 0
  | some line => ((readSigned (line.drop contentLengthField.length)).getD 0).toNat

def protocolField : Line := ascii "HTTP/1.1 "

/-- The body of the response at the front of a stream, and what follows it. -/
def readResponse (stream : List UInt8) : Option (List UInt8 × List UInt8) :=
  match next takeByte ([], []) stream with
  | none => none
  | some (headers, rest) =>
    let length := contentLength headers
    if protocolField <+: headers.headD [] ∧ length ≤ rest.length then
      some (rest.take length, rest.drop length)
    else none

/-- The bodies of a number of responses, if a stream is just these. -/
def readBodies : Nat → List UInt8 → Option (List (List UInt8))
  | 0, stream => if stream = [] then some [] else none
  | n + 1, stream =>
    match readResponse stream with
    | none => none
    | some (body, rest) => (readBodies n rest).map (body :: ·)

/-! ## Headers -/

def startLines (code : ResponseCode) : List Line :=
  [protocolField ++ decimal code.toNat ++ ascii " " ++ code.message,
    ascii "Date: Mon, 27 Jul 2009 12:28:53 GMT", ascii "Server: GameBoy Trilogy"]

/-- The lines of `header`. -/
def headerLines (code : ResponseCode) (length : Int32) (mime : Line) : List Line :=
  startLines code ++
  (if length ≠ 0 then
    [ascii "Last-Modified: Wed, 22 Jul 2019 19:15:56 GMT",
      contentLengthField ++ intText length, ascii "Content-Type: " ++ mime]
  else []) ++
  [ascii "Connection: Closed"]

theorem header_eq (code : ResponseCode) (length : Int32) (mime : Line) :
    header code length mime = (headerLines code length mime).flatMap (· ++ crlf) ++ crlf := by
  unfold header headerLines startLines protocolField contentLengthField
  split_ifs <;> simp

theorem next_bytes (headers : List Line) (line bytes : Line) (stream : List UInt8)
    (h : newline ∉ bytes) :
    next takeByte (headers, line) (bytes ++ stream) =
      next takeByte (headers, line ++ bytes) stream := by
  induction bytes generalizing line with
  | nil => rw [List.append_nil, List.nil_append]
  | cons b bytes ih =>
    rw [List.mem_cons, not_or] at h
    rw [List.cons_append, next_byte _ _ _ (Ne.symm h.1), ih _ h.2, List.append_assoc]
    rfl

/-- Lines that are not empty are read up to the blank one. -/
theorem next_lines {lines : List Line} (hlines : ∀ l ∈ lines, newline ∉ l ∧ l ≠ [])
    (headers : List Line) (rest : List UInt8) :
    next takeByte (headers, []) (lines.flatMap (· ++ crlf) ++ crlf ++ rest) =
      some (headers ++ lines.map (· ++ [carriageReturn]) ++ [[carriageReturn]], rest) := by
  induction lines generalizing headers with
  | nil =>
    show next takeByte (headers, []) ([carriageReturn] ++ newline :: rest) = _
    rw [next_bytes _ _ _ _ (by decide), List.nil_append, next_blank]
    simp
  | cons l lines ih =>
    obtain ⟨hl, hne⟩ := hlines l List.mem_cons_self
    have hline : newline ∉ l ++ [carriageReturn] := by
      rw [List.mem_append, not_or]
      exact ⟨hl, by decide⟩
    have hblank : l ++ [carriageReturn] ≠ [carriageReturn] := by simpa using hne
    have hsplit : (l :: lines).flatMap (· ++ crlf) ++ crlf ++ rest =
        (l ++ [carriageReturn]) ++ newline :: (lines.flatMap (· ++ crlf) ++ crlf ++ rest) := by
      simp [crlf]
    rw [hsplit, next_bytes _ _ _ _ hline, List.nil_append, next_line _ _ hblank,
      ih fun m hm => hlines m (List.mem_cons_of_mem l hm)]
    simp

/-- What `wait` passes of such a text, however it is cut. -/
theorem wait_lines {lines : List Line} (hlines : ∀ l ∈ lines, newline ∉ l ∧ l ≠ [])
    {reads : List (List UInt8)} (hcut : Cut (lines.flatMap (· ++ crlf) ++ crlf) reads) :
    wait reads = some (lines.map (· ++ [carriageReturn]) ++ [[carriageReturn]], []) := by
  have hnext := next_lines hlines [] []
  rw [List.append_nil, ← hcut.whole, List.nil_append] at hnext
  obtain ⟨left, n, hreceive, hflatten, -, hmem⟩ := receive_some hnext
  cases left with
  | nil => exact hreceive
  | cons read left =>
    rw [List.drop_nil, List.flatten_cons, List.append_eq_nil_iff] at hflatten
    exact absurd hflatten.1 (hcut.sizes read (hmem read List.mem_cons_self)).1

section Header

variable (code : ResponseCode) (length : Int32) {mime : Line}

theorem headerLines_plain (hmime : newline ∉ mime) :
    ∀ l ∈ headerLines code length mime, newline ∉ l ∧ l ≠ [] := by
  have hnumber : newline ∉ contentLengthField ++ intText length := by
    rw [List.mem_append, not_or]
    refine ⟨by decide, fun h => ?_⟩
    rcases signedDecimal_chars h with he | hd
    · exact absurd he (by decide)
    · exact absurd hd (by decide)
  have htype : newline ∉ ascii "Content-Type: " ++ mime := by
    rw [List.mem_append, not_or]
    exact ⟨by decide, hmime⟩
  unfold headerLines
  rw [List.forall_mem_append, List.forall_mem_append]
  refine ⟨⟨?_, ?_⟩, ?_⟩
  · cases code <;> decide
  · split_ifs
    · refine List.forall_mem_cons.mpr ⟨by decide, List.forall_mem_cons.mpr
        ⟨⟨hnumber, List.cons_ne_nil _ _⟩, List.forall_mem_cons.mpr
          ⟨⟨htype, List.cons_ne_nil _ _⟩, List.forall_mem_nil _⟩⟩⟩
    · exact List.forall_mem_nil _
  · decide

theorem contentLength_header :
    contentLength ((headerLines code length mime).map (· ++ [carriageReturn]) ++
      [[carriageReturn]]) = length.toInt.toNat := by
  unfold contentLength
  by_cases hlength : length = 0
  · subst hlength
    have hnone : ((headerLines code 0 mime).map (· ++ [carriageReturn]) ++
        [[carriageReturn]]).find? (contentLengthField <+: ·) = none := by
      cases code <;> rfl
    rw [hnone]
    rfl
  · have hstart : ((startLines code).map (· ++ [carriageReturn])).find?
        (contentLengthField <+: ·) = none := by
      cases code <;> rfl
    have hsome : ((headerLines code length mime).map (· ++ [carriageReturn]) ++
        [[carriageReturn]]).find? (contentLengthField <+: ·) =
          some (contentLengthField ++ intText length ++ [carriageReturn]) := by
      rw [headerLines, if_pos hlength, List.map_append, List.map_append, List.append_assoc,
        List.append_assoc, List.find?_append, hstart, Option.none_or]
      refine (List.find?_cons_of_neg (by decide)).trans (List.find?_cons_of_pos ?_)
      exact decide_eq_true ⟨intText length ++ [carriageReturn], by simp⟩
    rw [hsome]
    have hread := readSigned_append length.toInt [carriageReturn]
      (fun c hc => Option.some.inj hc ▸ by decide)
    simp only [List.append_assoc, List.drop_left]
    unfold intText
    rw [hread]
    rfl

/-- What the client makes of a header and the bytes after it. -/
theorem readResponse_header (hmime : newline ∉ mime) (rest : List UInt8) :
    readResponse (header code length mime ++ rest) =
      if length.toInt.toNat ≤ rest.length then
        some (rest.take length.toInt.toNat, rest.drop length.toInt.toNat)
      else none := by
  have hprotocol : protocolField <+: ((headerLines code length mime).map
      (· ++ [carriageReturn]) ++ [[carriageReturn]]).headD [] := by
    refine ⟨decimal code.toNat ++ ascii " " ++ code.message ++ [carriageReturn], ?_⟩
    simp [headerLines, startLines]
  unfold readResponse
  rw [header_eq, next_lines (headerLines_plain code length hmime), List.nil_append]
  simp only [contentLength_header, hprotocol, true_and]

end Header

/-! ## Streams of responses -/

/-- What the server writes is nothing or begins with a response. -/
def Begins (stream : List UInt8) : Prop := stream = [] ∨ stream.head? = some 0x48

theorem begins_header (code : ResponseCode) (length : Int32) (mime : Line) (rest : List UInt8) :
    Begins (header code length mime ++ rest) := .inr rfl

/-- One byte too many in front hides the responses. -/
theorem readResponse_shifted {x : UInt8} {stream : List UInt8} (h : Begins stream) :
    readResponse (x :: stream) = none := by
  unfold readResponse
  cases hnext : next takeByte ([], []) (x :: stream) with
  | none => rfl
  | some received =>
    obtain ⟨headers, rest⟩ := received
    have hprotocol : ¬ protocolField <+: headers.headD [] := by
      rw [List.headD_eq_head?_getD, head?_next hnext, List.nil_append, Option.getD_some]
      rintro ⟨tail, htail⟩
      have hwhole := List.takeWhile_append_dropWhile (p := (· ≠ newline)) (l := x :: stream)
      rw [← htail, List.append_assoc] at hwhole
      have hsecond : stream.head? = some 0x54 := (congrArg (·.tail.head?) hwhole).symm
      rcases h with rfl | hfirst
      · cases hsecond
      · exact absurd (hfirst.symm.trans hsecond) (by decide)
    exact if_neg fun hread => hprotocol hread.1

theorem readBodies_shifted {x : UInt8} {stream : List UInt8} (h : Begins stream) (n : Nat) :
    readBodies n (x :: stream) = none := by
  cases n with
  | zero => rfl
  | succ n => rw [readBodies, readResponse_shifted h]

/-- A response with an empty body is read by itself. -/
theorem readBodies_empty (code : ResponseCode) {length : Int32} (hlength : length.toInt ≤ 0)
    {mime : Line} (hmime : newline ∉ mime) (n : Nat) (stream : List UInt8) :
    readBodies (n + 1) (header code length mime ++ stream) =
      (readBodies n stream).map ([] :: ·) := by
  have hzero : length.toInt.toNat = 0 := Int.toNat_of_nonpos hlength
  rw [readBodies, readResponse_header _ _ hmime, hzero]
  simp

theorem toInt_add_one {length : Int32} (h : ¬ (length + 1).toInt < 0) :
    (length + 1).toInt = length.toInt + 1 := by
  have hlow := length.le_toInt
  have hhigh := length.toInt_lt
  have hone : (1 : Int32).toInt = 1 := rfl
  rw [Int32.toInt_add, hone] at h ⊢
  rw [Int.bmod_def] at h ⊢
  omega

/-- A file is sent with one byte more than its length says. -/
theorem fileResponse_ok {code : ResponseCode} {file : Line} {content response : List UInt8}
    (h : fileResponse code file content = .ok response) :
    ∃ length mime message, response = header code length mime ++ message ∧ newline ∉ mime ∧
      length = Int32.ofNat content.length ∧ (message.length : Int) = length.toInt + 1 := by
  unfold fileResponse at h
  extract_lets length mime size message at h
  have hmime : newline ∉ mime := by
    unfold mime
    split_ifs <;> decide
  split_ifs at h with hsize
  have hlength : (message.length : Int) = size := by
    unfold message
    rw [List.length_take, List.length_append, List.length_replicate]
    omega
  exact ⟨length, mime, message, (Except.ok.inj h).symm, hmime, rfl,
    hlength.trans (toInt_add_one hsize)⟩

/-- A file hides what comes after it, unless its length does not fit the header. -/
theorem readBodies_file {code : ResponseCode} {file : Line} {content response : List UInt8}
    (h : fileResponse code file content = .ok response) {stream : List UInt8}
    (hstream : Begins stream) {n : Nat} {bodies : List (List UInt8)}
    (hbodies : readBodies n (response ++ stream) = some bodies) :
    ∃ k later, n = k + 1 ∧ bodies = [] :: later ∧ content ≠ [] ∧
      readBodies k stream = some later := by
  obtain ⟨length, mime, message, rfl, hmime, hlength, hmessage⟩ := fileResponse_ok h
  rw [List.append_assoc] at hbodies
  cases n with
  | zero => cases hbodies
  | succ k =>
    by_cases hsign : 0 ≤ length.toInt
    · -- the body is as long as the header says, and one byte is left
      have hbyte : message.length = length.toInt.toNat + 1 := by omega
      obtain ⟨x, hx⟩ : ∃ x, (message ++ stream).drop length.toInt.toNat = x :: stream := by
        obtain ⟨x, hx⟩ := List.length_eq_one_iff.mp
          (show (message.drop length.toInt.toNat).length = 1 by rw [List.length_drop]; omega)
        exact ⟨x, by rw [List.drop_append_of_le_length (by omega), hx]; rfl⟩
      rw [readBodies, readResponse_header _ _ hmime,
        if_pos (by rw [List.length_append]; omega), hx] at hbodies
      simp only [readBodies_shifted hstream, Option.map_none] at hbodies
      cases hbodies
    · have hmessage : message = [] := List.length_eq_zero_iff.mp (by omega)
      rw [hmessage, List.nil_append, readBodies_empty code (by omega) hmime] at hbodies
      obtain ⟨later, hlater, rfl⟩ := Option.map_eq_some_iff.mp hbodies
      refine ⟨k, later, rfl, rfl, ?_, hlater⟩
      rintro rfl
      exact hsign (hlength ▸ by decide)

/-! ## Requests and what answers them -/

/-- What `handleRequest` does with a request. -/
inductive Action
  | none
  | page (code : ResponseCode) (file : Line)
  | event (file : Line)
  deriving DecidableEq, Repr

def action (line : Line) : Action :=
  let tokens := split line 0x20
  if 3 ≠ tokens.length then .none
  else
    let file := if ascii "/" = tokens.getD 1 [] then ascii "index.html" else tokens.getD 1 []
    if ascii "GET" ≠ tokens.getD 0 [] ∨ ascii "HTTP/1.1" ≠ tokens.getD 2 [] then
      .page .http400 (ascii "400.html")
    else if ascii "event" <:+: file then .event file
    else .page .http200 file

theorem handleRequest_eq (files : Files) (console : JoyPad) (line : Line) (rest : List Line) :
    handleRequest files console (line :: rest) =
      match action line with
      | .none => .ok (console, [])
      | .page code file => (getResponse files code file).map fun response => (console, response)
      | .event file => (handleEvent console file).map fun console =>
          (console, header .http204 0 (ascii "text/html")) := by
  unfold handleRequest action
  simp only
  split_ifs <;> rfl

/-- The content of a file, or of the page for files that are missing. -/
def page (files : Files) (file : Line) : List UInt8 :=
  (files file).getD ((files page404).getD [])

/-- The file that a request is for. -/
def served (files : Files) (request : List Line) : List UInt8 :=
  match action (request.headD []) with
  | .page _ file => page files file
  | _ => []

/-- An event that the console takes. -/
def Event (console : JoyPad) (request : List Line) : Prop :=
  ∃ line rest file console', request = line :: rest ∧ action line = .event file ∧
    handleEvent console file = .ok console'

/-- Whether an event is taken does not depend on the console. -/
theorem handleEvent_ok {console console₁ : JoyPad} {file : Line}
    (h : handleEvent console file = .ok console₁) (console' : JoyPad) :
    ∃ console₂, handleEvent console' file = .ok console₂ :=
  (handleEvent_ok_iff console' file).mpr (reads_of_ok h)

theorem getResponse_cases {files : Files} {code : ResponseCode} {file : Line}
    {response : List UInt8} (h : getResponse files code file = .ok response) :
    response = [] ∨ ∃ code' file', fileResponse code' file' (page files file) = .ok response := by
  unfold getResponse at h
  unfold page
  cases hfile : files file with
  | some content =>
    rw [hfile] at h
    exact .inr ⟨code, file, h⟩
  | none =>
    rw [hfile] at h
    by_cases hpage : page404 = file
    · exact .inl (Except.ok.inj ((if_pos hpage).symm.trans h)).symm
    · replace h := (if_neg hpage).symm.trans h
      cases hmissing : files page404 with
      | some content =>
        rw [hmissing] at h
        exact .inr ⟨.http404, page404, h⟩
      | none =>
        rw [hmissing] at h
        exact .inl (Except.ok.inj h).symm

section Serve

variable {files : Files} {console console' : JoyPad} {request : List Line} {response : List UInt8}

theorem not_event {line : Line} {rest : List Line} (h : ∀ file, action line ≠ .event file) :
    ¬ Event console (line :: rest) := by
  rintro ⟨line', rest', file, console', hrequest, haction, -⟩
  obtain ⟨rfl, -⟩ := List.cons.inj hrequest
  exact h file haction

theorem event_of_event (h : Event console request) (console' : JoyPad) :
    Event console' request := by
  obtain ⟨line, rest, file, _, hrequest, haction, hevent⟩ := h
  obtain ⟨console₂, hevent⟩ := handleEvent_ok hevent console'
  exact ⟨line, rest, file, console₂, hrequest, haction, hevent⟩

theorem event_congr : Event console request ↔ Event console' request :=
  ⟨fun h => event_of_event h console', fun h => event_of_event h console⟩

theorem handleRequest_event (files : Files) (h : Event console request) :
    ∃ answer, handleRequest files console request = .ok answer := by
  obtain ⟨line, rest, file, console', rfl, haction, hevent⟩ := h
  rw [handleRequest_eq, haction]
  exact ⟨_, Run.map_eq_ok.mpr ⟨console', hevent, rfl⟩⟩

/-- What answers a request. -/
theorem handleRequest_cases (h : handleRequest files console request = .ok (console', response)) :
    (response = [] ∧ ¬ Event console request) ∨
      (∃ code file, fileResponse code file (served files request) = .ok response ∧
        ¬ Event console request) ∨
      (Event console request ∧ served files request = [] ∧
        response = header .http204 0 (ascii "text/html")) := by
  cases request with
  | nil => cases h
  | cons line rest =>
    rw [handleRequest_eq] at h
    unfold served
    rw [List.headD_cons]
    cases haction : action line with
    | none =>
      rw [haction] at h
      obtain ⟨-, rfl⟩ := Prod.mk.inj (Except.ok.inj h)
      exact .inl ⟨rfl, not_event (by rw [haction]; exact nofun)⟩
    | page code file =>
      have hnot : ¬ Event console (line :: rest) := not_event (by rw [haction]; exact nofun)
      rw [haction] at h
      obtain ⟨response', hresponse, hpair⟩ := Run.map_eq_ok.mp h
      obtain ⟨-, rfl⟩ := Prod.mk.inj hpair
      rcases getResponse_cases hresponse with hnone | ⟨code', file', hfile⟩
      · exact .inl ⟨hnone, hnot⟩
      · exact .inr (.inl ⟨code', file', hfile, hnot⟩)
    | event file =>
      rw [haction] at h
      obtain ⟨console'', hevent, hpair⟩ := Run.map_eq_ok.mp h
      obtain ⟨rfl, rfl⟩ := Prod.mk.inj hpair
      exact .inr (.inr ⟨⟨line, rest, file, console'', rfl, haction, hevent⟩, rfl, rfl⟩)

theorem begins_of_handleRequest {stream : List UInt8} (hstream : Begins stream)
    (h : handleRequest files console request = .ok (console', response)) :
    Begins (response ++ stream) := by
  rcases handleRequest_cases h with ⟨rfl, -⟩ | ⟨code, file, hfile, -⟩ | ⟨-, -, rfl⟩
  · exact hstream
  · obtain ⟨length, mime, message, rfl, -, -, -⟩ := fileResponse_ok hfile
    rw [List.append_assoc]
    exact begins_header code length mime _
  · exact begins_header _ _ _ _

end Serve

theorem serve_error {files : Files} {console : JoyPad} {request : List Line} {e : Fault}
    (h : handleRequest files console request = .error e) (requests : List (List Line)) :
    (serve files console (request :: requests)).written = [] := by
  simp only [serve, h]

theorem serve_ok {files : Files} {console console' : JoyPad} {request : List Line}
    {response : List UInt8} (h : handleRequest files console request = .ok (console', response))
    (requests : List (List Line)) :
    (serve files console (request :: requests)).written =
      response ++ (serve files console' requests).written := by
  simp only [serve, h]

theorem begins_serve (files : Files) (console : JoyPad) (requests : List (List Line)) :
    Begins (serve files console requests).written := by
  induction requests generalizing console with
  | nil => exact .inl rfl
  | cons request requests ih =>
    cases h : handleRequest files console request with
    | error e => exact .inl (serve_error h requests)
    | ok answer =>
      rw [serve_ok h]
      exact begins_of_handleRequest (ih answer.1) h

theorem readBodies_nil {n : Nat} {bodies : List (List UInt8)} (h : readBodies n [] = some bodies) :
    n = 0 := by
  cases n with
  | zero => rfl
  | succ n => cases h

theorem toInt_zero : (0 : Int32).toInt ≤ 0 := by decide

/-- No more responses can be read than requests have been answered. -/
theorem readBodies_le {files : Files} {console : JoyPad} {requests : List (List Line)} {n : Nat}
    {bodies : List (List UInt8)}
    (h : readBodies n (serve files console requests).written = some bodies) :
    n ≤ requests.length := by
  induction requests generalizing console n bodies with
  | nil => exact (readBodies_nil h).le
  | cons request requests ih =>
    cases hrequest : handleRequest files console request with
    | error e =>
      rw [serve_error hrequest] at h
      exact (readBodies_nil h) ▸ Nat.zero_le _
    | ok answer =>
      obtain ⟨console', response⟩ := answer
      rw [serve_ok hrequest] at h
      rcases handleRequest_cases hrequest with ⟨rfl, -⟩ | ⟨code, file, hfile, -⟩ | ⟨-, -, rfl⟩
      · exact Nat.le_succ_of_le (ih h)
      · obtain ⟨k, later, rfl, -, -, hlater⟩ := readBodies_file hfile (begins_serve _ _ _) h
        exact Nat.succ_le_succ (ih hlater)
      · cases n with
        | zero => exact Nat.zero_le _
        | succ k =>
          rw [readBodies_empty _ toInt_zero (by decide)] at h
          obtain ⟨later, hlater, -⟩ := Option.map_eq_some_iff.mp h
          exact Nat.succ_le_succ (ih hlater)

/-- The client recovers one response for each request, with the body that the request is
for, exactly if every request is an event that the console takes: no response with a file
leaves the connection in step. -/
theorem responses_framed_iff (files : Files) (console : JoyPad) (requests : List (List Line)) :
    readBodies requests.length (serve files console requests).written =
        some (requests.map (served files)) ↔
      ∀ request ∈ requests, Event console request := by
  induction requests generalizing console with
  | nil => exact iff_of_true rfl (List.forall_mem_nil _)
  | cons request requests ih =>
    rw [List.forall_mem_cons, List.length_cons, List.map_cons]
    cases hrequest : handleRequest files console request with
    | error e =>
      rw [serve_error hrequest]
      refine iff_of_false nofun fun h => ?_
      obtain ⟨answer, hanswer⟩ := handleRequest_event files h.1
      cases hrequest.symm.trans hanswer
    | ok answer =>
      obtain ⟨console', response⟩ := answer
      rw [serve_ok hrequest]
      rcases handleRequest_cases hrequest with ⟨rfl, hnot⟩ | ⟨code, file, hfile, hnot⟩ |
        ⟨hevent, hserved, rfl⟩
      · -- no answer at all: there are fewer responses than requests
        refine iff_of_false (fun h => ?_) fun h => hnot h.1
        exact absurd (readBodies_le h) (Nat.not_succ_le_self _)
      · refine iff_of_false (fun h => ?_) fun h => hnot h.1
        obtain ⟨k, later, -, hbodies, hcontent, -⟩ :=
          readBodies_file hfile (begins_serve files console' requests) h
        exact hcontent (List.cons.inj hbodies).1
      · have hrest : (∀ r ∈ requests, Event console r) ↔ ∀ r ∈ requests, Event console' r :=
          forall₂_congr fun _ _ => event_congr
        rw [readBodies_empty _ toInt_zero (by decide), hserved, and_iff_right hevent, hrest,
          ← ih console']
        constructor
        · intro h
          obtain ⟨bodies, hbodies, hcons⟩ := Option.map_eq_some_iff.mp h
          rw [hbodies, (List.cons.inj hcons).2]
        · intro h
          rw [h]
          rfl

/-- Two requests for a page of one letter. -/
theorem page_out_of_step :
    let files : Files := fun file => if file = ascii "index.html" then some [0x61] else none
    let console : JoyPad := { directions := JoyPad.buttonsIdle, buttons := JoyPad.buttonsIdle }
    let request : List Line := [ascii "GET / HTTP/1.1\r", [carriageReturn]]
    readBodies 2 (serve files console [request, request]).written = none ∧
      [request, request].map (served files) = [[0x61], [0x61]] := by
  intro files console request
  have hpage : getResponse files .http200 (ascii "index.html") =
      .ok (header .http200 1 (ascii "text/html") ++ [0x61, 0]) := rfl
  have hrequest : handleRequest files console request =
      .ok (console, header .http200 1 (ascii "text/html") ++ [0x61, 0]) := by
    rw [handleRequest_eq]
    exact congrArg (Except.map fun response => (console, response)) hpage
  refine ⟨?_, rfl⟩
  have hlength : (1 : Int32).toInt.toNat = 1 := rfl
  rw [serve_ok hrequest, List.append_assoc, readBodies, readResponse_header _ _ (by decide),
    hlength, if_pos (by simp)]
  -- the client stands in front of the zero behind the page
  show (readBodies 1 (0 :: (serve files console [request]).written)).map _ = none
  rw [readBodies_shifted (begins_serve files console [request])]
  rfl

end GbEmu.GameServer
