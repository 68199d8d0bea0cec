import GbEmu.Lib.Path
import GbEmu.Server.Framing

/-!
The files that requests open. The target is put behind `html/` as it is, so a target that
climbs higher than it has come down leaves the directory.
-/

namespace GbEmu.GameServer

open Text Util

/-! ## Paths -/

def slash : UInt8 := 0x2F

def html : Line := ascii "html"
def dot : Line := ascii "."
def dotDot : Line := ascii ".."

/-- What the system sees of a string: it ends at the first zero. -/
def cString (s : Line) : Line := s.takeWhile (· ≠ 0)

/-- The components of a path, less those that lead nowhere. -/
def components (path : Line) : List Line :=
  ((cString path).splitOn slash).filter fun c => decide (c ≠ [] ∧ c ≠ dot)

/-- The argument of the `ifstream` in `getResponse`. -/
def openedPath (file : Line) : Line := ascii "html/" ++ file

/-- In the document root, with `.` and `..` resolved lexically. -/
def Inside (file : Line) : Prop :=
  (Path.resolve dotDot (components (openedPath file))).Below html

instance (file : Line) : Decidable (Inside file) :=
  inferInstanceAs (Decidable (Path.Place.Below _ _))

theorem components_openedPath (file : Line) :
    components (openedPath file) = html :: components file := by
  have hstring : cString (openedPath file) = html ++ slash :: cString file := by
    have hzero : (ascii "html/").all (· ≠ 0) = true := rfl
    unfold cString openedPath
    rw [List.takeWhile_append_of_pos (List.all_eq_true.mp hzero)]
    rfl
  unfold components
  rw [hstring, List.splitOn_append_cons_self_of_not_mem (by decide),
    List.filter_cons_of_pos (by decide)]

theorem inside_iff (file : Line) :
    Inside file ↔ Path.Enters dotDot html (html :: components file) := by
  unfold Inside
  rw [components_openedPath]
  exact Path.below_iff (by decide) _

/-! ## Files -/

/-- The files that `getResponse` opens. -/
def opened (files : Files) (file : Line) : List Line :=
  match files file with
  | some _ => [file]
  | none => if page404 = file then [file] else [file, page404]

/-- The files that a request opens. -/
def opens (files : Files) (line : Line) : List Line :=
  match action line with
  | .page _ file => opened files file
  | _ => []

section Congr

variable {files files' : Files}

/-- Nothing else of the file system makes a difference. -/
theorem getResponse_congr {file : Line} (h : ∀ name ∈ opened files file, files' name = files name)
    (code : ResponseCode) : getResponse files' code file = getResponse files code file := by
  unfold opened at h
  unfold getResponse
  cases hfile : files file with
  | some content =>
    rw [hfile] at h
    rw [h file List.mem_cons_self, hfile]
  | none =>
    rw [hfile] at h
    by_cases hpage : page404 = file
    · simp only [if_pos hpage] at h ⊢
      rw [h file List.mem_cons_self, hfile]
    · simp only [if_neg hpage] at h ⊢
      rw [h file List.mem_cons_self, hfile,
        h page404 (List.mem_cons_of_mem file List.mem_cons_self)]

theorem handleRequest_congr {line : Line} (h : ∀ name ∈ opens files line, files' name = files name)
    (console : JoyPad) (rest : List Line) :
    handleRequest files' console (line :: rest) = handleRequest files console (line :: rest) := by
  rw [handleRequest_eq, handleRequest_eq]
  unfold opens at h
  cases haction : action line with
  | none => rfl
  | event file => rfl
  | page code file =>
    rw [haction] at h
    simp only [getResponse_congr h code]

end Congr

theorem mem_opened {files : Files} {file name : Line} (h : name ∈ opened files file) :
    name = file ∨ name = page404 := by
  unfold opened at h
  cases hfile : files file with
  | some content =>
    rw [hfile] at h
    exact .inl (List.mem_singleton.mp h)
  | none =>
    rw [hfile] at h
    simp only at h
    split_ifs at h
    · exact .inl (List.mem_singleton.mp h)
    · simpa using h

theorem self_mem_opened (files : Files) (file : Line) : file ∈ opened files file := by
  unfold opened
  cases files file with
  | some content => exact List.mem_cons_self
  | none =>
    simp only
    split_ifs <;> exact List.mem_cons_self

/-! ## The document root -/

theorem inside_page404 : Inside page404 := by decide

theorem inside_page400 : Inside (ascii "400.html") := by decide

/-- A page is the target of the request, or one of the server's own. -/
theorem action_page {line : Line} {code : ResponseCode} {file : Line}
    (h : action line = .page code file) : code = .http200 ∨ file = ascii "400.html" := by
  unfold action at h
  simp only at h
  split_ifs at h <;> cases h <;> first | exact .inl rfl | exact .inr rfl

/-- What a request opens is all that its answer depends on; and it opens files in the
document root only, exactly if its target, read from there, never climbs above it without
coming back. -/
theorem opens_inside_iff (files : Files) (line : Line) :
    (∀ files' : Files, (∀ name ∈ opens files line, files' name = files name) →
      ∀ console rest, handleRequest files' console (line :: rest) =
        handleRequest files console (line :: rest)) ∧
    ((∀ name ∈ opens files line, Inside name) ↔
      ∀ file, action line = .page .http200 file →
        Path.Enters dotDot html (html :: components file)) := by
  refine ⟨fun files' h => handleRequest_congr h, ?_⟩
  constructor
  · intro hinside file haction
    unfold opens at hinside
    rw [haction] at hinside
    exact (inside_iff file).mp (hinside file (self_mem_opened files file))
  · intro hreturns name hname
    unfold opens at hname
    cases haction : action line with
    | none =>
      rw [haction] at hname
      exact absurd hname List.not_mem_nil
    | event file =>
      rw [haction] at hname
      exact absurd hname List.not_mem_nil
    | page code file =>
      rw [haction] at hname
      rcases mem_opened hname with rfl | rfl
      · rcases action_page haction with rfl | rfl
        · exact (inside_iff name).mpr (hreturns name haction)
        · exact inside_page400
      · exact inside_page404

/-- The directory beside `html` is within reach. -/
theorem secret_outside :
    ¬ ∀ files line, ∀ name ∈ opens files line, Inside name := by
  intro h
  have hsecret := h (fun _ => none) (ascii "GET /../secret HTTP/1.1\r") (ascii "/../secret")
    (by decide)
  exact absurd hsecret (by decide)

end GbEmu.GameServer
