import GbEmu.Server.Framing

/-!
Requests that throw. The number of an event that cannot be read, or that is no button, and
a file whose length is not an `int` are exceptions, and each of them stops the server.
-/

namespace GbEmu.GameServer

open Text GbEmu.Configuration JoyPad

/-! ## Files -/

/-- The length of the message, an `int` one greater than that of the file, is not negative. -/
def Fits (content : List UInt8) : Prop := (content.length + 1) % 2 ^ 32 < 2 ^ 31

theorem fits_nil : Fits [] := by
  unfold Fits
  decide

theorem fits_iff (content : List UInt8) :
    Fits content ↔ ¬ (Int32.ofNat content.length + 1).toInt < 0 := by
  have hone : Int32.ofNat content.length + 1 = Int32.ofNat (content.length + 1) :=
    (Int32.ofNat_add content.length 1).symm
  have hsize : ((Int32.size : Nat) : Int) = 2 ^ 32 := rfl
  rw [Fits, hone, Int32.toInt_ofNat', Int.bmod_def, hsize]
  split_ifs <;> omega

theorem fileResponse_ok_iff (code : ResponseCode) (file : Line) (content : List UInt8) :
    (∃ response, fileResponse code file content = .ok response) ↔ Fits content := by
  rw [fits_iff]
  unfold fileResponse
  extract_lets length mime size message
  by_cases hsize : size < 0
  · rw [if_pos hsize]
    exact iff_of_false nofun fun h => h hsize
  · rw [if_neg hsize]
    exact iff_of_true ⟨_, rfl⟩ hsize

theorem getResponse_ok_iff (files : Files) (code : ResponseCode) (file : Line) :
    (∃ response, getResponse files code file = .ok response) ↔ Fits (page files file) := by
  unfold getResponse page
  cases hfile : files file with
  | some content => exact fileResponse_ok_iff code file content
  | none =>
    by_cases hpage : page404 = file
    · subst hpage
      simp only [if_true, hfile, Option.getD_none]
      exact iff_of_true ⟨_, rfl⟩ fits_nil
    · simp only [if_neg hpage, Option.getD_none]
      cases hmissing : files page404 with
      | some content => exact fileResponse_ok_iff .http404 page404 content
      | none => exact iff_of_true ⟨_, rfl⟩ fits_nil

/-! ## Requests -/

/-- What is to come of a request: it is answered, and only an event changes the console. -/
def Answered (files : Files) (console : JoyPad) (line : Line) (rest : List Line) : Prop :=
  ∃ console' response, handleRequest files console (line :: rest) = .ok (console', response) ∧
    (∀ target, action line = .event target → Handled console target console') ∧
    ((∀ target, action line ≠ .event target) → console' = console)

section Answered

variable {files : Files} {console : JoyPad} {line : Line} {rest : List Line}

theorem answered_page {code : ResponseCode} {file : Line} (h : action line = .page code file) :
    Answered files console line rest ↔ Fits (page files file) := by
  rw [← getResponse_ok_iff files code file]
  unfold Answered
  rw [handleRequest_eq, h]
  constructor
  · rintro ⟨console', response, hok, -, -⟩
    obtain ⟨response', hresponse, -⟩ := Run.map_eq_ok.mp hok
    exact ⟨response', hresponse⟩
  · rintro ⟨response, hresponse⟩
    exact ⟨console, response, Run.map_eq_ok.mpr ⟨response, hresponse, rfl⟩, nofun, fun _ => rfl⟩

theorem answered_event {target : Line} (h : action line = .event target) :
    Answered files console line rest ↔ Reads target := by
  unfold Answered
  rw [handleRequest_eq, h]
  constructor
  · rintro ⟨console', response, hok, -, -⟩
    obtain ⟨console'', hevent, -⟩ := Run.map_eq_ok.mp hok
    exact reads_of_ok hevent
  · intro hreads
    obtain ⟨console', hevent⟩ := (handleEvent_ok_iff console target).mpr hreads
    refine ⟨console', _, Run.map_eq_ok.mpr ⟨console', hevent, rfl⟩, ?_, fun hnone => ?_⟩
    · rintro target' ⟨⟩
      exact handled_of_ok hevent
    · exact absurd rfl (hnone target)

theorem answered_iff (files : Files) (console : JoyPad) (line : Line) (rest : List Line) :
    Answered files console line rest ↔
      (∀ target, action line = .event target → Reads target) ∧
        Fits (served files (line :: rest)) := by
  unfold served
  rw [List.headD_cons]
  cases haction : action line with
  | none =>
    refine iff_of_true ⟨console, [], ?_, ?_, fun _ => rfl⟩ ⟨nofun, fits_nil⟩
    · rw [handleRequest_eq, haction]
    · rw [haction]
      exact nofun
  | page code file =>
    rw [answered_page haction]
    exact (and_iff_right nofun).symm
  | event target =>
    rw [answered_event haction]
    refine ⟨fun hreads => ⟨?_, fits_nil⟩, fun h => h.1 target rfl⟩
    rintro target' ⟨⟩
    exact hreads

end Answered

/-- A request is answered exactly if its numbers can be read and name a button, and the
length of the file that it is for fits an `int`; and `handleEvent` returns exactly if the
numbers can be read and name a button. -/
theorem requests_answered_iff (files : Files) (console : JoyPad) :
    (∀ line rest, Answered files console line rest ↔
      (∀ target, action line = .event target → Reads target) ∧
        Fits (served files (line :: rest))) ∧
    ∀ request, (∃ console', handleEvent console request = .ok console' ∧
      Handled console request console') ↔ Reads request := by
  refine ⟨answered_iff files console, fun request => ?_⟩
  rw [← handleEvent_ok_iff console request]
  constructor
  · rintro ⟨console', h, -⟩
    exact ⟨console', h⟩
  · rintro ⟨console', h⟩
    exact ⟨console', h, handled_of_ok h⟩

/-- There is no button 3. -/
theorem button_three_throws :
    ¬ ∀ files console line rest, Answered files console line rest := by
  intro h
  obtain ⟨console', response, hok, -, -⟩ :=
    h (fun _ => none) released (ascii "GET /event?1=3 HTTP/1.1\r") []
  have hthrows : handleRequest (fun _ => none) released [ascii "GET /event?1=3 HTTP/1.1\r"] =
      .error .outOfRange := rfl
  cases hthrows.symm.trans hok

end GbEmu.GameServer
