import GbEmu.Configuration

/-!
What the reader of the settings does with a line: it leaves the settings alone or
replaces one of them.
-/

namespace GbEmu.Configuration

open Text Util

/-! ## Lines -/

/-- The reader finds the lines that the writer ends. -/
theorem lines_flatMap {ls : List (List UInt8)} (h : ∀ l ∈ ls, newline ∉ l) :
    lines (ls.flatMap (· ++ [newline])) = ls := by
  have hjoin : ls.flatMap (· ++ [newline]) = [newline].intercalate (ls ++ [[]]) := by
    induction ls with
    | nil => simp [List.intercalate]
    | cons l ls ih =>
      rw [List.flatMap_cons, ih fun m hm => h m (List.mem_cons_of_mem l hm)]
      obtain ⟨m, ms, hms⟩ := List.exists_cons_of_ne_nil
        (show ls ++ [[]] ≠ [] from List.append_ne_nil_of_right_ne_nil _ (List.cons_ne_nil _ _))
      rw [List.cons_append, hms]
      simp [List.intercalate]
  have hsplit : (ls.flatMap (· ++ [newline])).splitOn newline = ls ++ [[]] := by
    rw [hjoin]
    refine List.splitOn_intercalate newline (fun l hl => ?_)
      (List.append_ne_nil_of_right_ne_nil _ (List.cons_ne_nil _ _))
    rcases List.mem_append.mp hl with hl | hl
    · exact h l hl
    · rw [List.mem_singleton.mp hl]
      exact List.not_mem_nil
  simp only [lines, hsplit]
  simp

theorem newline_not_mem_of_lines {content l : List UInt8} (h : l ∈ lines content) :
    newline ∉ l := by
  simp only [lines] at h
  split_ifs at h
  · exact not_mem_of_mem_splitOn (List.mem_of_mem_dropLast h)
  · exact not_mem_of_mem_splitOn h

/-! ## A pass of the reader -/

section Pass

variable {junk : Int32} {settings settings' : Configuration} {line : List UInt8}

/-- What `parse` does not look at. -/
def Skipped (line : List UInt8) : Prop :=
  line = [] ∨ line.head? = some hash ∨ (split line colon).length < 3

instance (line : List UInt8) : Decidable (Skipped line) := inferInstanceAs (Decidable (_ ∨ _ ∨ _))

theorem parseLine_skipped (h : Skipped line) : parseLine junk settings line = .ok settings := by
  unfold parseLine
  rcases h with rfl | h | h
  · rfl
  · rw [if_pos (by simp [h])]
  · split_ifs
    · rfl
    · exact if_pos h

theorem parseLine_entry (h : ¬ Skipped line) :
    parseLine junk settings line =
      (stoi ((split line colon).getD 0 [])).map (assign junk settings (split line colon)) := by
  simp only [Skipped, not_or] at h
  obtain ⟨hempty, hcomment, hshort⟩ := h
  unfold parseLine
  rw [if_neg (by simp [hempty, hcomment])]
  exact if_neg hshort

/-- A pass leaves the settings alone or replaces one of them by what the line says. -/
theorem parseLine_cases (h : parseLine junk settings line = .ok settings') :
    settings' = settings ∨ ∃ k setting, ¬ Skipped line ∧
      Setting.read junk ((split line colon).getD 1 []) (valueField (split line colon)) =
        some setting ∧ settings' = Function.update settings k setting := by
  by_cases hskip : Skipped line
  · rw [parseLine_skipped hskip] at h
    exact .inl (Except.ok.inj h).symm
  · rw [parseLine_entry hskip] at h
    obtain ⟨key, -, rfl⟩ := Run.map_eq_ok.mp h
    unfold assign
    cases ConfigKey.find (UInt8.ofInt key) with
    | none => exact .inl rfl
    | some k =>
      cases hread : Setting.read junk ((split line colon).getD 1 [])
          (valueField (split line colon)) with
      | none => exact .inl rfl
      | some setting => exact .inr ⟨k, setting, hskip, rfl, rfl⟩

end Pass

/-! ## Keys as they are written -/

section Key

variable (key : ConfigKey)

theorem stoi_key : stoi (decimal key.toByte.toNat) = .ok key.toByte.toNat :=
  stoi_decimal (Nat.lt_trans key.toByte.toNat_lt (by decide))

theorem find_key : ConfigKey.find (UInt8.ofInt key.toByte.toNat) = some key := by
  cases key <;> decide

end Key

end GbEmu.Configuration
