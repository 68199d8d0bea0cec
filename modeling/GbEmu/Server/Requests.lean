import GbEmu.Server

/-!
The requests of a connection against the way its bytes are cut into reads. What a read
has beyond a blank line is lost, so the cut shows as soon as that could begin or be part
of another request.
-/

namespace GbEmu.GameServer

open Messages GbEmu.Configuration

/-! ## Lines -/

section Next

variable (headers : List Line) (stream : List UInt8)

theorem next_blank : next takeByte (headers, [carriageReturn]) (newline :: stream) =
    some (headers ++ [[carriageReturn]], stream) := by
  simp [next, takeByte]

theorem next_line {line : Line} (h : line ≠ [carriageReturn]) :
    next takeByte (headers, line) (newline :: stream) =
      next takeByte (headers ++ [line], []) stream := by
  simp [next, takeByte, h]

theorem next_byte (line : Line) {b : UInt8} (h : b ≠ newline) :
    next takeByte (headers, line) (b :: stream) = next takeByte (headers, line ++ [b]) stream := by
  simp [next, takeByte, h]

end Next

/-- The first request of a stream, and what follows it. -/
abbrev firstRequest (stream : List UInt8) : Option (List Line × List UInt8) :=
  next takeByte ([], []) stream

/-- Lines that are there already stand in front of the request. -/
theorem next_cons (first : Line) (headers : List Line) (line : Line) (stream : List UInt8) :
    next takeByte (first :: headers, line) stream =
      (next takeByte (headers, line) stream).map
        fun (request, rest) => (first :: request, rest) := by
  induction stream generalizing headers line with
  | nil => rfl
  | cons b stream ih =>
    by_cases hb : b = newline
    · subst hb
      by_cases hline : line = [carriageReturn]
      · subst hline
        rw [next_blank, next_blank]
        rfl
      · rw [next_line _ _ hline, next_line _ _ hline]
        exact ih (headers ++ [line]) []
    · rw [next_byte _ _ _ hb, next_byte _ _ _ hb]
      exact ih headers (line ++ [b])

/-- The first line of a request goes up to the first line break. -/
theorem head?_next {line : Line} {stream rest : List UInt8} {request : List Line}
    (h : next takeByte ([], line) stream = some (request, rest)) :
    request.head? = some (line ++ stream.takeWhile (· ≠ newline)) := by
  induction stream generalizing line with
  | nil => cases h
  | cons b stream ih =>
    by_cases hb : b = newline
    · subst hb
      have hfirst : request.head? = some line := by
        by_cases hline : line = [carriageReturn]
        · subst hline
          rw [next_blank] at h
          obtain ⟨rfl, -⟩ := Prod.mk.inj (Option.some.inj h)
          rfl
        · rw [next_line _ _ hline, List.nil_append, next_cons] at h
          obtain ⟨⟨later, _⟩, -, hrequest⟩ := Option.map_eq_some_iff.mp h
          obtain ⟨rfl, -⟩ := Prod.mk.inj hrequest
          rfl
      rw [hfirst, List.takeWhile_cons_of_neg (by simp), List.append_nil]
    · rw [next_byte _ _ _ hb] at h
      rw [ih h, List.takeWhile_cons_of_pos (by simpa using hb), List.append_assoc]
      rfl

/-- A line break, a carriage return and a line break. -/
def blankLine : List UInt8 := newline :: crlf

/-- A blank line begins with a line break, so it does not begin inside a line. -/
theorem blankLine_infix_append {line : Line} (stream : List UInt8) (h : newline ∉ line) :
    blankLine <:+: line ++ stream ↔ blankLine <:+: stream := by
  induction line with
  | nil => rfl
  | cons b line ih =>
    rw [List.mem_cons, not_or] at h
    obtain ⟨hb, hline⟩ := h
    rw [List.cons_append, List.infix_cons_iff, ih hline]
    refine or_iff_right fun hfirst => ?_
    exact hb (List.cons_prefix_cons.mp hfirst).1

/-- A line that is not blank takes no part in a blank line. -/
theorem blankLine_infix_line {line : Line} (stream : List UInt8) (h : newline ∉ line)
    (hcr : line ≠ [carriageReturn]) :
    blankLine <:+: newline :: (line ++ newline :: stream) ↔
      blankLine <:+: newline :: stream := by
  rw [List.infix_cons_iff, blankLine_infix_append _ h]
  refine or_iff_right fun hfirst => ?_
  have hcrlf : crlf <+: line ++ newline :: stream := (List.cons_prefix_cons.mp hfirst).2
  cases line with
  | nil => exact absurd (List.cons_prefix_cons.mp hcrlf).1 (by decide)
  | cons b line =>
    obtain ⟨rfl, hbreak⟩ := List.cons_prefix_cons.mp hcrlf
    cases line with
    | nil => exact hcr rfl
    | cons c line =>
      obtain ⟨rfl, -⟩ := List.cons_prefix_cons.mp hbreak
      exact h (List.mem_cons_of_mem _ List.mem_cons_self)

/-- Without a blank line there is no request. -/
theorem next_eq_none_iff {headers : List Line} {line : Line} {stream : List UInt8}
    (hline : newline ∉ line) :
    next takeByte (headers, line) stream = none ↔
      ¬ blankLine <:+: newline :: (line ++ stream) := by
  induction stream generalizing headers line with
  | nil =>
    refine iff_of_true rfl fun h => ?_
    have hcount := h.sublist.count_le newline
    rw [List.append_nil, List.count_cons_self, List.count_eq_zero.mpr hline] at hcount
    exact absurd hcount (by decide)
  | cons b stream ih =>
    by_cases hb : b = newline
    · subst hb
      by_cases hcr : line = [carriageReturn]
      · subst hcr
        rw [next_blank]
        exact iff_of_false nofun fun h => h ⟨[], stream, rfl⟩
      · rw [next_line _ _ hcr, ih List.not_mem_nil, blankLine_infix_line stream hline hcr]
        rfl
    · rw [next_byte _ _ _ hb, ih (by simp [hline, Ne.symm hb]), List.append_assoc]
      rfl

/-- Whether a stream holds a request. -/
theorem firstRequest_eq_none_iff (stream : List UInt8) :
    firstRequest stream = none ↔ ¬ crlf <+: stream ∧ ¬ blankLine <:+: stream := by
  rw [firstRequest, next_eq_none_iff List.not_mem_nil, List.nil_append, List.infix_cons_iff,
    not_or, blankLine, List.cons_prefix_cons]
  simp

/-! ## Requests from a cut stream -/

/-- A stream as successive results of `read`. -/
structure Cut (stream : List UInt8) (reads : List (List UInt8)) : Prop where
  whole : reads.flatten = stream
  sizes : ∀ read ∈ reads, read ≠ [] ∧ read.length ≤ recvBufferSize

theorem cut_bytes (stream : List UInt8) : Cut stream (stream.map fun b => [b]) := by
  refine ⟨?_, fun read hread => ?_⟩
  · induction stream with
    | nil => rfl
    | cons b stream ih => rw [List.map_cons, List.flatten_cons, ih]; rfl
  · obtain ⟨b, -, rfl⟩ := List.mem_map.mp hread
    exact ⟨List.cons_ne_nil _ _, (by decide : 1 ≤ recvBufferSize)⟩

section Http

variable {files : Files} {console : JoyPad} {stream : List UInt8} {reads : List (List UInt8)}

theorem http_none (h : wait reads = none) :
    http files console reads = { passed := [], console := console, written := [] } := by
  rw [http]
  split
  · rfl
  · rename_i hsome
    cases h.symm.trans hsome

theorem http_some {request : List Line} {rest : List (List UInt8)}
    (h : wait reads = some (request, rest)) :
    http files console reads =
      match handleRequest files console request with
      | .error _ => { passed := [request], console := console, written := [] }
      | .ok (console, response) =>
        { http files console rest with
          passed := request :: (http files console rest).passed
          written := response ++ (http files console rest).written } := by
  rw [http]
  split
  · rename_i hnone
    cases h.symm.trans hnone
  · rename_i request' rest' hsome
    obtain ⟨rfl, rfl⟩ := Prod.mk.inj (Option.some.inj (h.symm.trans hsome))
    rfl

/-- What comes of a connection is what comes of the requests that have been passed. -/
theorem http_eq_serve (files : Files) (console : JoyPad) (reads : List (List UInt8)) :
    http files console reads = serve files console (http files console reads).passed := by
  cases hwait : wait reads with
  | none =>
    rw [http_none hwait]
    rfl
  | some received =>
    obtain ⟨request, rest⟩ := received
    rw [http_some hwait]
    cases hrequest : handleRequest files console request with
    | error e => simp only [serve, hrequest]
    | ok answer =>
      obtain ⟨console, response⟩ := answer
      simp only [serve, hrequest]
      rw [← http_eq_serve files console rest]
  termination_by reads.length
  decreasing_by exact receive_length hwait

/-- The first request is passed however the stream is cut, and then what is left of the
rest after a read has lost a part of it. -/
theorem passed_of_cut (files : Files) (console : JoyPad) {request : List Line}
    {after : List UInt8} (h : Cut stream reads)
    (hfirst : firstRequest stream = some (request, after)) :
    ∃ rest n, n < recvBufferSize ∧ Cut (after.drop n) rest ∧
      (http files console reads).passed =
        match handleRequest files console request with
        | .error _ => [request]
        | .ok (console, _) => request :: (http files console rest).passed := by
  rw [← h.whole] at hfirst
  obtain ⟨rest, n, hreceive, hflatten, ⟨read, hread, hn⟩, hmem⟩ := receive_some hfirst
  refine ⟨rest, n, Nat.lt_of_lt_of_le hn (h.sizes read hread).2,
    ⟨hflatten, fun r hr => h.sizes r (hmem r hr)⟩, ?_⟩
  rw [http_some hreceive]
  cases handleRequest files console request <;> rfl

theorem passed_of_none (h : Cut stream reads) (hfirst : firstRequest stream = none) :
    (http files console reads).passed = [] := by
  rw [← h.whole] at hfirst
  rw [http_none (receive_none hfirst)]

/-- What is passed begins with the first request of the stream. -/
theorem head?_passed (h : Cut stream reads) :
    (http files console reads).passed.head? = (firstRequest stream).map Prod.fst := by
  cases hfirst : firstRequest stream with
  | none =>
    rw [passed_of_none h hfirst]
    rfl
  | some received =>
    obtain ⟨_, _, -, -, hpassed⟩ := passed_of_cut files console h hfirst
    rw [hpassed]
    cases handleRequest files console received.1 <;> rfl

/-- Any part of what follows the first request, if it is shorter than a read, can be lost. -/
theorem exists_cut {request : List Line} {after : List UInt8} {response : List UInt8}
    {console' : JoyPad} (hfirst : firstRequest stream = some (request, after))
    (hrequest : handleRequest files console request = .ok (console', response))
    {n : Nat} (hn : n < recvBufferSize) :
    ∃ reads rest, Cut stream reads ∧ Cut (after.drop n) rest ∧
      (http files console reads).passed = request :: (http files console' rest).passed := by
  have hrest := cut_bytes (after.drop n)
  obtain ⟨reads, hflatten, hreceive, hmem⟩ := exists_pieces hfirst n hrest.whole
  refine ⟨reads, _, ⟨hflatten, fun read hread => ?_⟩, hrest, ?_⟩
  · rcases hmem read hread with hr | ⟨hne, hlength⟩
    · exact hrest.sizes read hr
    · exact ⟨hne, Nat.le_trans hlength hn⟩
  · rw [http_some hreceive, hrequest]

end Http

/-- A stream and the stream without its first byte do not begin with the same request. -/
theorem firstRequest_ne {b : UInt8} {stream rest rest' : List UInt8}
    {request request' : List Line}
    (h : firstRequest (b :: stream) = some (request, rest))
    (h' : firstRequest stream = some (request', rest')) : request ≠ request' := by
  intro he
  subst he
  by_cases hb : b = newline
  · subst hb
    rw [firstRequest, next_line [] stream (List.cons_ne_nil _ _).symm, List.nil_append,
      next_cons] at h
    obtain ⟨⟨later, _⟩, hlater, hrequest⟩ := Option.map_eq_some_iff.mp h
    obtain ⟨rfl, -⟩ := Prod.mk.inj (Option.some.inj (hlater.symm.trans h'))
    obtain ⟨hloop, -⟩ := Prod.mk.inj hrequest
    exact absurd (congrArg List.length hloop) (by simp)
  · have hhead := (head?_next h).symm.trans (head?_next h')
    rw [List.takeWhile_cons_of_pos (by simpa using hb), Option.some.injEq] at hhead
    exact absurd (congrArg List.length hhead) (by simp)

/-- If it does not matter what is lost behind the first request, no request can begin there. -/
theorem no_request_of_heads {after : List UInt8}
    (h : ∀ n < recvBufferSize,
      (firstRequest (after.drop n)).map Prod.fst = (firstRequest after).map Prod.fst) :
    ¬ blankLine <:+: after ∧ ∀ n < recvBufferSize, ¬ crlf <+: after.drop n := by
  have hnone : firstRequest after = none := by
    cases hfirst : firstRequest after with
    | none => rfl
    | some received =>
      exfalso
      cases after with
      | nil => cases hfirst
      | cons b after =>
        have hone := h 1 (by decide)
        rw [hfirst] at hone
        obtain ⟨received', hfirst', hsame⟩ := Option.map_eq_some_iff.mp hone
        exact firstRequest_ne hfirst hfirst' hsame.symm
  refine ⟨((firstRequest_eq_none_iff after).mp hnone).2, fun n hn => ?_⟩
  have hdrop : firstRequest (after.drop n) = none := by
    rw [← Option.map_eq_none_iff, h n hn, hnone]
    rfl
  exact ((firstRequest_eq_none_iff _).mp hdrop).1

/-- However a stream is cut, the same requests are passed, exactly if it holds no request,
or its first request throws, or no request can begin behind it: what follows has no blank
line, and no line ends there where the bytes that a read loses can stop. -/
theorem passed_eq_iff (files : Files) (console : JoyPad) (stream : List UInt8) :
    (∀ reads reads', Cut stream reads → Cut stream reads' →
        (http files console reads).passed = (http files console reads').passed) ↔
      firstRequest stream = none ∨
        ∃ request after, firstRequest stream = some (request, after) ∧
          ((∃ e, handleRequest files console request = .error e) ∨
            ¬ blankLine <:+: after ∧ ∀ n < recvBufferSize, ¬ crlf <+: after.drop n) := by
  cases hfirst : firstRequest stream with
  | none =>
    refine iff_of_true (fun reads reads' h h' => ?_) (.inl rfl)
    rw [passed_of_none h hfirst, passed_of_none h' hfirst]
  | some received =>
    obtain ⟨request, after⟩ := received
    have hcut {reads} (h : Cut stream reads) :=
      passed_of_cut files console h hfirst
    cases hrequest : handleRequest files console request with
    | error e =>
      refine iff_of_true (fun reads reads' h h' => ?_)
        (.inr ⟨request, after, rfl, .inl ⟨e, hrequest⟩⟩)
      obtain ⟨_, _, -, -, hpassed⟩ := hcut h
      obtain ⟨_, _, -, -, hpassed'⟩ := hcut h'
      rw [hpassed, hpassed', hrequest]
    | ok answer =>
      obtain ⟨console', response⟩ := answer
      constructor
      · intro hsame
        refine .inr ⟨request, after, rfl, .inr (no_request_of_heads fun n hn => ?_)⟩
        -- a cut that loses `n` bytes behind the first request, and one that loses none
        obtain ⟨reads, rest, hreads, hrest, hpassed⟩ := exists_cut hfirst hrequest hn
        obtain ⟨reads₀, rest₀, hreads₀, hrest₀, hpassed₀⟩ :=
          exists_cut hfirst hrequest (by decide : 0 < recvBufferSize)
        have hlists := hsame reads reads₀ hreads hreads₀
        rw [hpassed, hpassed₀, List.cons.injEq] at hlists
        rw [← head?_passed hrest, hlists.2, head?_passed hrest₀, List.drop_zero]
      · rintro (hnone | ⟨_, _, hsome, hquiet⟩) reads reads' h h'
        · cases hnone
        · obtain ⟨rfl, rfl⟩ := Prod.mk.inj (Option.some.inj hsome)
          rcases hquiet with ⟨e, he⟩ | ⟨hblank, hcrlf⟩
          · cases hrequest.symm.trans he
          · have hone {reads} (h : Cut stream reads) :
                (http files console reads).passed = [request] := by
              obtain ⟨rest, n, hn, hrest, hpassed⟩ := hcut h
              have hnone : firstRequest (after.drop n) = none :=
                (firstRequest_eq_none_iff _).mpr ⟨hcrlf n hn, fun hb =>
                  hblank (hb.trans (List.drop_suffix n after).isInfix)⟩
              rw [hpassed, hrequest]
              show request :: (http files console' rest).passed = _
              rw [passed_of_none hrest hnone]
            rw [hone h, hone h']

/-- Two requests in one read and in two. -/
theorem second_request_lost :
    let files : Files := fun _ => none
    let console : JoyPad := { directions := JoyPad.buttonsIdle, buttons := JoyPad.buttonsIdle }
    let request := Text.ascii "GET /event HTTP/1.1\r\n\r\n"
    Cut (request ++ request) [request ++ request] ∧ Cut (request ++ request) [request, request] ∧
      (http files console [request ++ request]).passed ≠
        (http files console [request, request]).passed := by
  intro files console request
  have hread : wait [request ++ request] =
      some ([Text.ascii "GET /event HTTP/1.1\r", [carriageReturn]], []) := by decide
  have hreads : wait [request, request] =
      some ([Text.ascii "GET /event HTTP/1.1\r", [carriageReturn]], [request]) := by decide
  have hlast : wait [request] =
      some ([Text.ascii "GET /event HTTP/1.1\r", [carriageReturn]], []) := by decide
  have hrequest : handleRequest files console
      [Text.ascii "GET /event HTTP/1.1\r", [carriageReturn]] =
        .ok (console, header .http204 0 (Text.ascii "text/html")) := rfl
  refine ⟨⟨rfl, by decide⟩, ⟨rfl, by decide⟩, ?_⟩
  rw [http_some hread, http_some hreads, hrequest]
  simp only [http_some hlast, hrequest, http_none (show wait [] = none from rfl)]
  decide

end GbEmu.GameServer
