import GbEmu.Lib.BitField
import GbEmu.Lib.Text

/-!
The Base64 text of `base64.cpp`. Both directions collect a group in a small array, and turn
what is left in it at the end into the last group. Texts are shorter than their `int` counts.
-/

namespace GbEmu.Base64

open BitField Text

def base64Chars : List UInt8 :=
  ascii "ABCDEFGHIJKLMNOPQRSTUVWXYZabcdefghijklmnopqrstuvwxyz0123456789+/"

/-- `=`. -/
def pad : UInt8 := 0x3D

def isBase64 (c : UInt8) : Bool :=
  isDigit c || (0x41 ≤ c && c ≤ 0x5A) || (0x61 ≤ c && c ≤ 0x7A) || c == 0x2B || c == 0x2F

/-- `base64_chars[i]`. -/
def char (i : UInt8) : UInt8 := base64Chars.getD i.toNat 0

/-- `base64_chars.find(c)` as a byte; `npos` is 0xFF. -/
def find (c : UInt8) : UInt8 :=
  match base64Chars.findIdx? (· = c) with
  | some i => UInt8.ofNat i
  | none => 0xFF

/-- `char_array_4` of the bytes in `char_array_3`. -/
def sextets (a b c : UInt8) : List UInt8 :=
  [(a &&& 0xFC) >>> 2, ((a &&& 0x03) <<< 4) + ((b &&& 0xF0) >>> 4),
    ((b &&& 0x0F) <<< 2) + ((c &&& 0xC0) >>> 6), c &&& 0x3F]

/-- `char_array_3` of the numbers in `char_array_4`. -/
def bytes (w x y z : UInt8) : List UInt8 :=
  [(w <<< 2) + ((x &&& 0x30) >>> 4), ((x &&& 0x0F) <<< 4) + ((y &&& 0x3C) >>> 2),
    ((y &&& 0x03) <<< 6) + z]

/-- A pass of the loop of `base64_encode`, with the bytes of the group and `ret`. -/
def takeByte (s : List UInt8 × List UInt8) (byte : UInt8) : List UInt8 × List UInt8 :=
  match s.1 ++ [byte] with
  | [a, b, c] => ([], s.2 ++ (sextets a b c).map char)
  | group => (group, s.2)

def encodeRest (group : List UInt8) : List UInt8 :=
  if group = [] then []
  else
    ((sextets (group.getD 0 0) (group.getD 1 0) (group.getD 2 0)).take (group.length + 1)).map
      char ++ List.replicate (3 - group.length) pad

def encode (input : List UInt8) : List UInt8 :=
  let (group, ret) := input.foldl takeByte ([], [])
  ret ++ encodeRest group

/-- A pass of the loop of `base64_decode`, with the characters of the group and `ret`. -/
def takeChar (s : List UInt8 × List UInt8) (c : UInt8) : List UInt8 × List UInt8 :=
  match s.1 ++ [c] with
  | [w, x, y, z] => ([], s.2 ++ bytes (find w) (find x) (find y) (find z))
  | group => (group, s.2)

def decodeRest (group : List UInt8) : List UInt8 :=
  if group = [] then []
  else
    (bytes (find (group.getD 0 0)) (find (group.getD 1 0)) (find (group.getD 2 0))
      (find (group.getD 3 0))).take (group.length - 1)

/-- The condition of the loop, while there are characters. -/
def isPlain (c : UInt8) : Bool := c != pad && isBase64 c

def decode (encoded : List UInt8) : List UInt8 :=
  let (group, ret) := (encoded.takeWhile isPlain).foldl takeChar ([], [])
  ret ++ decodeRest group

/-! ## Groups -/

theorem char_spec (i : UInt8) : i.toNat < 64 → isPlain (char i) = true ∧ find (char i) = i :=
  forall_byte (P := fun i => i.toNat < 64 → isPlain (char i) = true ∧ find (char i) = i)
    (by decide +kernel) i

/-- What the masks and shifts take out of a byte. -/
theorem toNat_field (x : UInt8) :
    ((x &&& 0xFC) >>> 2).toNat = x.toNat / 4 ∧ ((x &&& 0xF0) >>> 4).toNat = x.toNat / 16 ∧
    ((x &&& 0xC0) >>> 6).toNat = x.toNat / 64 ∧ ((x &&& 0x30) >>> 4).toNat = x.toNat / 16 % 4 ∧
    ((x &&& 0x3C) >>> 2).toNat = x.toNat / 4 % 16 ∧ (x &&& 0x3F).toNat = x.toNat % 64 ∧
    ((x &&& 0x03) <<< 4).toNat = x.toNat % 4 * 16 ∧ ((x &&& 0x0F) <<< 2).toNat = x.toNat % 16 * 4 ∧
    ((x &&& 0x0F) <<< 4).toNat = x.toNat % 16 * 16 ∧ ((x &&& 0x03) <<< 6).toNat = x.toNat % 4 * 64 ∧
    (x <<< 2).toNat = x.toNat * 4 % 256 := by
  revert x
  refine forall_byte ?_
  decide +kernel

theorem toNat_add {x y : UInt8} (h : x.toNat + y.toNat < 256) :
    (x + y).toNat = x.toNat + y.toNat := by
  rw [UInt8.toNat_add, Nat.mod_eq_of_lt h]

/-- The bits of three bytes in four numbers. -/
theorem toNat_sextets (a b c : UInt8) :
    ∃ s t u v, sextets a b c = [s, t, u, v] ∧ s.toNat = a.toNat / 4 ∧
      t.toNat = a.toNat % 4 * 16 + b.toNat / 16 ∧ u.toNat = b.toNat % 16 * 4 + c.toNat / 64 ∧
      v.toNat = c.toNat % 64 := by
  have ha := a.toNat_lt
  have hb := b.toNat_lt
  have hc := c.toNat_lt
  obtain ⟨hs, -, -, -, -, -, hfirst, -, -, -, -⟩ := toNat_field a
  obtain ⟨-, hsecond, -, -, -, -, -, hthird, -, -, -⟩ := toNat_field b
  obtain ⟨-, -, hlast, -, -, hv, -, -, -, -, -⟩ := toNat_field c
  refine ⟨_, _, _, _, rfl, hs, ?_, ?_, hv⟩
  · rw [toNat_add (by omega), hfirst, hsecond]
  · rw [toNat_add (by omega), hthird, hlast]

/-- The bytes come back, and each of them from the numbers that have its bits. -/
theorem bytes_of_sextets {a b c s t u v : UInt8} (h : sextets a b c = [s, t, u, v]) :
    s.toNat < 64 ∧ t.toNat < 64 ∧ u.toNat < 64 ∧ v.toNat < 64 ∧ bytes s t u v = [a, b, c] := by
  have ha := a.toNat_lt
  have hb := b.toNat_lt
  have hc := c.toNat_lt
  obtain ⟨s', t', u', v', heq, hs, ht, hu, hv⟩ := toNat_sextets a b c
  obtain ⟨rfl, rfl, rfl, rfl⟩ : s' = s ∧ t' = t ∧ u' = u ∧ v' = v := by
    simpa using heq.symm.trans h
  obtain ⟨-, -, -, -, -, -, -, -, -, -, hw⟩ := toNat_field s'
  obtain ⟨-, -, -, hx, -, -, -, -, hx16, -, -⟩ := toNat_field t'
  obtain ⟨-, -, -, -, hy, -, -, -, -, hy64, -⟩ := toNat_field u'
  refine ⟨by omega, by omega, by omega, by omega, ?_⟩
  have hfirst : (s' <<< 2) + ((t' &&& 0x30) >>> 4) = a := by
    rw [← UInt8.toNat_inj, toNat_add (by omega)]
    omega
  have hsecond : ((t' &&& 0x0F) <<< 4) + ((u' &&& 0x3C) >>> 2) = b := by
    rw [← UInt8.toNat_inj, toNat_add (by omega)]
    omega
  have hthird : ((u' &&& 0x03) <<< 6) + v' = c := by
    rw [← UInt8.toNat_inj, toNat_add (by omega)]
    omega
  rw [bytes, hfirst, hsecond, hthird]

/-! ## Texts -/

/-- A step that only adds to its output adds the same to any. -/
theorem foldl_output {step : List UInt8 × List UInt8 → UInt8 → List UInt8 × List UInt8}
    (hstep : ∀ group ret c,
      step (group, ret) c = ((step (group, []) c).1, ret ++ (step (group, []) c).2))
    (input group ret : List UInt8) :
    input.foldl step (group, ret) =
      ((input.foldl step (group, [])).1, ret ++ (input.foldl step (group, [])).2) := by
  induction input generalizing group ret with
  | nil => simp
  | cons c input ih =>
    rw [List.foldl_cons, List.foldl_cons, hstep, ih, ih _ (step (group, []) c).2,
      List.append_assoc]

theorem takeByte_output (group ret : List UInt8) (byte : UInt8) :
    takeByte (group, ret) byte =
      ((takeByte (group, []) byte).1, ret ++ (takeByte (group, []) byte).2) := by
  simp only [takeByte]
  split <;> simp

theorem takeChar_output (group ret : List UInt8) (c : UInt8) :
    takeChar (group, ret) c =
      ((takeChar (group, []) c).1, ret ++ (takeChar (group, []) c).2) := by
  simp only [takeChar]
  split <;> simp

theorem encode_one (a : UInt8) :
    encode [a] = ((sextets a 0 0).take 2).map char ++ [pad, pad] := rfl

theorem encode_two (a b : UInt8) :
    encode [a, b] = ((sextets a b 0).take 3).map char ++ [pad] := rfl

/-- The text begins with the characters of the first three bytes. -/
theorem encode_cons (a b c : UInt8) (input : List UInt8) :
    encode (a :: b :: c :: input) = (sextets a b c).map char ++ encode input := by
  have hgroup : (a :: b :: c :: input).foldl takeByte ([], []) =
      input.foldl takeByte ([], (sextets a b c).map char) := rfl
  unfold encode
  rw [hgroup, foldl_output takeByte_output]
  exact List.append_assoc _ _ _

/-- What begins with four characters has the bytes of these in front. -/
theorem decode_cons {w x y z : UInt8} (hw : isPlain w = true) (hx : isPlain x = true)
    (hy : isPlain y = true) (hz : isPlain z = true) (encoded : List UInt8) :
    decode (w :: x :: y :: z :: encoded) =
      bytes (find w) (find x) (find y) (find z) ++ decode encoded := by
  have hfront : (w :: x :: y :: z :: encoded).takeWhile isPlain =
      w :: x :: y :: z :: encoded.takeWhile isPlain := by
    rw [List.takeWhile_cons_of_pos hw, List.takeWhile_cons_of_pos hx,
      List.takeWhile_cons_of_pos hy, List.takeWhile_cons_of_pos hz]
  have hgroup (rest : List UInt8) : (w :: x :: y :: z :: rest).foldl takeChar ([], []) =
      rest.foldl takeChar ([], bytes (find w) (find x) (find y) (find z)) := rfl
  unfold decode
  rw [hfront, hgroup, foldl_output takeChar_output]
  exact List.append_assoc _ _ _

/-- A last group. -/
theorem decode_group {group : List UInt8} (hgroup : ∀ c ∈ group, isPlain c = true)
    (hlength : group.length < 4) : decode group = decodeRest group := by
  have hfront : group.takeWhile isPlain = group := List.takeWhile_eq_self_iff.mpr hgroup
  have hfold : group.foldl takeChar ([], []) = (group, []) := by
    match group with
    | [] | [_] | [_, _] | [_, _, _] => rfl
    | _ :: _ :: _ :: _ :: _ => exact absurd hlength (by simp)
  unfold decode
  rw [hfront, hfold]
  rfl

/-- The loop does not get past a character that is not of the alphabet. -/
theorem decode_append (encoded : List UInt8) {c : UInt8} (hc : isPlain c = false)
    (rest : List UInt8) : decode (encoded ++ c :: rest) = decode encoded := by
  have hfront : (encoded ++ c :: rest).takeWhile isPlain = encoded.takeWhile isPlain := by
    induction encoded with
    | nil => exact List.takeWhile_cons_of_neg (by rw [hc]; decide)
    | cons d encoded ih =>
      rw [List.cons_append, List.takeWhile_cons, List.takeWhile_cons, ih]
  unfold decode
  rw [hfront]

theorem decode_encode (input : List UInt8) : decode (encode input) = input := by
  match input with
  | [] => rfl
  | [a] =>
    obtain ⟨s, t, u, v, hsextets, -⟩ := toNat_sextets a 0 0
    obtain ⟨hs, ht, -, -, hbytes⟩ := bytes_of_sextets hsextets
    have hencode : encode [a] = [char s, char t] ++ pad :: [pad] := by
      rw [encode_one, hsextets]
      rfl
    have hgroup : ∀ c ∈ [char s, char t], isPlain c = true := by
      simp [(char_spec s hs).1, (char_spec t ht).1]
    rw [hencode, decode_append _ (by decide), decode_group hgroup (by simp)]
    show (bytes (find (char s)) (find (char t)) (find 0) (find 0)).take 1 = [a]
    rw [(char_spec s hs).2, (char_spec t ht).2]
    exact congrArg (List.take 1) hbytes
  | [a, b] =>
    obtain ⟨s, t, u, v, hsextets, -⟩ := toNat_sextets a b 0
    obtain ⟨hs, ht, hu, -, hbytes⟩ := bytes_of_sextets hsextets
    have hencode : encode [a, b] = [char s, char t, char u] ++ pad :: [] := by
      rw [encode_two, hsextets]
      rfl
    have hgroup : ∀ c ∈ [char s, char t, char u], isPlain c = true := by
      simp [(char_spec s hs).1, (char_spec t ht).1, (char_spec u hu).1]
    rw [hencode, decode_append _ (by decide), decode_group hgroup (by simp)]
    show (bytes (find (char s)) (find (char t)) (find (char u)) (find 0)).take 2 = [a, b]
    rw [(char_spec s hs).2, (char_spec t ht).2, (char_spec u hu).2]
    exact congrArg (List.take 2) hbytes
  | a :: b :: c :: input =>
    have ih := decode_encode input
    obtain ⟨s, t, u, v, hsextets, -⟩ := toNat_sextets a b c
    obtain ⟨hs, ht, hu, hv, hbytes⟩ := bytes_of_sextets hsextets
    rw [encode_cons, hsextets]
    show decode (char s :: char t :: char u :: char v :: encode input) = _
    rw [decode_cons (char_spec s hs).1 (char_spec t ht).1 (char_spec u hu).1 (char_spec v hv).1,
      (char_spec s hs).2, (char_spec t ht).2, (char_spec u hu).2, (char_spec v hv).2, hbytes, ih]
    rfl

example : encode (ascii "Ma") = ascii "TWE=" := by decide

/-- A text has the alphabet and the padding only. -/
theorem encode_chars (input : List UInt8) : ∀ c ∈ encode input, isPlain c = true ∨ c = pad := by
  have hsextets (a b c : UInt8) : ∀ d ∈ (sextets a b c).map char, isPlain d = true := by
    obtain ⟨s, t, u, v, heq, -⟩ := toNat_sextets a b c
    obtain ⟨hs, ht, hu, hv, -⟩ := bytes_of_sextets heq
    rw [heq]
    simp [(char_spec s hs).1, (char_spec t ht).1, (char_spec u hu).1, (char_spec v hv).1]
  match input with
  | [] => exact List.forall_mem_nil _
  | [a] =>
    intro c hc
    rw [encode_one] at hc
    rcases List.mem_append.mp hc with hc | hc
    · exact .inl (hsextets a 0 0 c (((List.take_sublist _ _).map char).subset hc))
    · exact .inr (by simpa using hc)
  | [a, b] =>
    intro c hc
    rw [encode_two] at hc
    rcases List.mem_append.mp hc with hc | hc
    · exact .inl (hsextets a b 0 c (((List.take_sublist _ _).map char).subset hc))
    · exact .inr (by simpa using hc)
  | a :: b :: d :: input =>
    intro c hc
    rw [encode_cons] at hc
    rcases List.mem_append.mp hc with hc | hc
    · exact .inl (hsextets a b d c hc)
    · exact encode_chars input c hc

end GbEmu.Base64
