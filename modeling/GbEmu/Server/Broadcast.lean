import GbEmu.Gpu.Frames
import GbEmu.Server.WebSocket

/-!
The pictures on their way from the graphics unit to the page. The emulation publishes a
picture at each vblank, `websocket` takes it if it has not been taken, and sends it; the
page shows what it gets, and acknowledges it with a frame of which the server reads a part.
The lock of `getColorMap` is released before its caller moves the picture out, so a
publication can come into the move; what is moved then is not known.
-/

namespace GbEmu

open GameServer Gpu

/-- A picture as a vector. -/
def pixels (screen : ColorArray) : List RGB := (List.range (pixelsPerRow * pixelsPerCol)).map screen

/-- The bytes of an `ImageData` of the size of the screen. -/
def canvasSize : Nat := 4 * (pixelsPerRow * pixelsPerCol)

def ackLength : Nat := 3

/-- The frame of `send("r")`: two bytes, a mask of four and one byte. -/
def ackFrameLength : Nat := 7

structure Broadcast where
  bus : Bus
  /-- `m_screen` has been moved from. -/
  taken : Bool
  /-- What the graphics unit has published. -/
  published : List (List RGB)
  /-- `websocket` moves the picture out of `m_screen`, without the lock. -/
  moving : Bool
  /-- A publication has come into a move. -/
  raced : Bool
  /-- The server waits for an acknowledgement. -/
  waiting : Bool
  /-- What has been sent on this connection, and its bytes that are on their way. -/
  sent : List (List RGB)
  wire : List UInt8
  /-- The bytes of a frame that the page does not have to its end. -/
  buffered : List UInt8
  /-- What the page has shown of this connection, and of those before. -/
  shown : List (List UInt8)
  before : List (List UInt8)
  /-- The bytes of acknowledgements that the server has not read. -/
  acks : Nat

namespace Broadcast

/-- After the constructors, with a connection that has been accepted. -/
def start (s : Bus) : Broadcast where
  bus := s
  taken := false
  published := []
  moving := false
  raced := false
  waiting := false
  sent := []
  wire := []
  buffered := []
  shown := []
  before := []
  acks := 0

/-- `m_screen`. -/
def screen (b : Broadcast) : List RGB := if b.taken then [] else pixels b.bus.gpu.screen

/-- A cycle of the graphics unit; a publication is of what is in `m_buffer`. -/
def cycle (b : Broadcast) (ticks : UInt8) : Broadcast :=
  let (s, es) := b.bus.cycle ticks
  if .publish ∈ es then
    { b with
      bus := s
      taken := false
      published := b.published ++ [pixels b.bus.gpu.buffer]
      raced := b.raced || b.moving }
  else { b with bus := s }

/-- What the move of `m_screen` can bring out. After a race that may be anything of the
size of the screen. -/
def Moved (b : Broadcast) (payload : List RGB) : Prop :=
  payload = b.screen ∨
    b.raced = true ∧ (payload = [] ∨ payload.length = pixelsPerRow * pixelsPerCol)

/-- The end of the move, and the rest of the pass of `websocket` up to the acknowledgement. -/
def fetch (b : Broadcast) (payload : List RGB) : Broadcast :=
  let b := { b with moving := false, taken := true }
  if payload.isEmpty then b
  else
    { b with waiting := true, sent := b.sent ++ [payload], wire := b.wire ++ send payload }

/-- The server reads so many bytes of acknowledgements. -/
def ack (b : Broadcast) (n : Nat) : Broadcast :=
  { b with waiting := false, acks := b.acks - n }

/-- `onMessage` for each of the messages that have come to their end: the acknowledgement,
and the picture if `ImageData` takes it. -/
def deliver (b : Broadcast) (n : Nat) : Broadcast :=
  let stream := b.buffered ++ b.wire.take n
  let (messages, rest) := Codec.drain readMessage stream.length stream
  { b with
    wire := b.wire.drop n
    buffered := rest
    shown := b.shown ++ messages.filter fun data => data.length = canvasSize
    acks := b.acks + ackFrameLength * messages.length }

/-- The connection breaks, and the next is accepted. -/
def reconnect (b : Broadcast) : Broadcast :=
  { b with
    waiting := false
    sent := []
    wire := []
    buffered := []
    shown := []
    before := b.before ++ b.shown
    acks := 0 }

/-- A step of the emulation, of the server or of the page. -/
inductive Step : Broadcast → Broadcast → Prop
  | cycle (b : Broadcast) (ticks : UInt8) : Step b (b.cycle ticks)
  /-- Anything else in the emulation; only a cycle touches the pictures. -/
  | guest (b : Broadcast) (s : Bus) (h : s.gpu.screen = b.bus.gpu.screen)
      (h' : s.gpu.buffer = b.bus.gpu.buffer) : Step b { b with bus := s }
  /-- `getColorMap` has returned, and the move begins. -/
  | move (b : Broadcast) (h : b.waiting = false) (h' : b.moving = false) :
      Step b { b with moving := true }
  | fetch (b : Broadcast) (payload : List RGB) (h : b.moving = true) (hp : b.Moved payload) :
      Step b (b.fetch payload)
  | ack (b : Broadcast) (n : Nat) (h : b.waiting = true) (hpos : 0 < n) (hn : n ≤ ackLength)
      (hacks : n ≤ b.acks) : Step b (b.ack n)
  | deliver (b : Broadcast) (n : Nat) : Step b (b.deliver n)
  | reconnect (b : Broadcast) (h : b.moving = false) : Step b b.reconnect

end Broadcast

/-! ## Pictures -/

theorem length_pixels (screen : ColorArray) :
    (pixels screen).length = pixelsPerRow * pixelsPerCol := by
  rw [pixels, List.length_map, List.length_range]

theorem pixels_ne_nil (screen : ColorArray) : pixels screen ≠ [] := by
  rw [← List.length_pos_iff_ne_nil, length_pixels]
  decide

section Sizes

variable {payload : List RGB} (h : payload.length = pixelsPerRow * pixelsPerCol)

include h

theorem sendable_of_length : Sendable payload := by
  unfold Sendable
  rw [h]
  decide

theorem length_image_of_length : (image payload).length = canvasSize := by
  rw [length_image, h, canvasSize]

end Sizes

/-! ## Steps -/

namespace Broadcast

/-- The picture in `m_screen`, if it is still there. -/
def current (b : Broadcast) : List (List RGB) :=
  if b.taken then [] else [pixels b.bus.gpu.screen]

/-- What has been sent and not shown is on its way, picture by picture. -/
structure Framed (b : Broadcast) : Prop where
  sizes : ∀ payload ∈ b.sent, payload.length = pixelsPerRow * pixelsPerCol
  transit : ∃ arrived transit, b.sent = arrived ++ transit ∧ b.shown = arrived.map image ∧
    b.buffered ++ b.wire = transit.flatMap send

/-- Nothing is sent or shown but the picture `initial` and those that have been published,
in the order of publication and none twice. -/
def Ordered (initial : List RGB) (b : Broadcast) : Prop :=
  (b.before ++ (b.sent ++ b.current).map image).Sublist ((initial :: b.published).map image)

/-- The server has read of each acknowledgement but the last, and three bytes at most. -/
structure Counted (b : Broadcast) : Prop where
  waits : b.waiting = true → b.sent ≠ []
  moves : b.moving = true → b.waiting = false
  most : 7 * b.shown.length ≤ b.acks + 3 * (b.sent.length - b.waiting.toNat)
  least : b.acks + (b.sent.length - b.waiting.toNat) ≤ 7 * b.shown.length

variable {b b' : Broadcast}

/-- A cycle publishes the buffer, or leaves the pictures alone. -/
theorem cycle_cases (b : Broadcast) (ticks : UInt8) :
    ((b.bus.cycle ticks).1.gpu.screen = b.bus.gpu.buffer ∧
      b.cycle ticks = { b with
        bus := (b.bus.cycle ticks).1
        taken := false
        published := b.published ++ [pixels b.bus.gpu.buffer]
        raced := b.raced || b.moving }) ∨
    ((b.bus.cycle ticks).1.gpu.screen = b.bus.gpu.screen ∧
      b.cycle ticks = { b with bus := (b.bus.cycle ticks).1 }) := by
  have hhappened := b.bus.cycle_happened ticks
  by_cases hpublish : .publish ∈ (b.bus.cycle ticks).2
  · exact .inl ⟨(hhappened.published hpublish).1, if_pos hpublish⟩
  · exact .inr ⟨hhappened.screen_kept hpublish, if_neg hpublish⟩

/-- What a move without a race brings out is the picture that is in `m_screen`. -/
theorem fetch_eq (b : Broadcast) : b.fetch b.screen =
    { b with
      moving := false
      taken := true
      waiting := !b.taken || b.waiting
      sent := b.sent ++ b.current
      wire := b.wire ++ b.current.flatMap send } := by
  unfold fetch screen current
  cases htaken : b.taken with
  | true => simp
  | false => simp [pixels_ne_nil]

theorem fetch_cons (b : Broadcast) {payload : List RGB} (h : payload ≠ []) : b.fetch payload =
    { b with
      moving := false
      taken := true
      waiting := true
      sent := b.sent ++ [payload]
      wire := b.wire ++ send payload } := by
  have hempty : payload.isEmpty = false := List.isEmpty_eq_false_iff.mpr h
  simp only [fetch, hempty, Bool.false_eq_true, if_false]

theorem moved_cases {payload : List RGB} (h : b.Moved payload) :
    payload = [] ∨ payload.length = pixelsPerRow * pixelsPerCol := by
  rcases h with rfl | ⟨-, h⟩
  · unfold screen
    split_ifs
    · exact .inl rfl
    · exact .inr (length_pixels _)
  · exact h

/-! ## Frames on their way -/

theorem framed_start (s : Bus) : Framed (start s) where
  sizes := fun _ h => absurd h List.not_mem_nil
  transit := ⟨[], [], rfl, rfl, rfl⟩

theorem framed_fetch (h : Framed b) {payload : List RGB}
    (hp : payload = [] ∨ payload.length = pixelsPerRow * pixelsPerCol) :
    Framed (b.fetch payload) := by
  rcases List.eq_nil_or_concat payload with rfl | hcons
  · exact ⟨h.sizes, h.transit⟩
  · have hne : payload ≠ [] := by
      obtain ⟨_, _, rfl⟩ := hcons
      simp
    have hlength := hp.resolve_left hne
    obtain ⟨arrived, transit, hsent, hshown, hwire⟩ := h.transit
    rw [fetch_cons b hne]
    refine ⟨?_, arrived, transit ++ [payload], ?_, hshown, ?_⟩
    · intro sent hmem
      rcases List.mem_append.mp hmem with hmem | hmem
      · exact h.sizes sent hmem
      · exact List.mem_singleton.mp hmem ▸ hlength
    · show b.sent ++ [payload] = _
      rw [hsent, List.append_assoc]
    · show b.buffered ++ (b.wire ++ send payload) = _
      rw [← List.append_assoc, hwire, List.flatMap_append, List.flatMap_singleton]

/-- What the page has then is what has arrived whole. -/
theorem deliver_eq (h : Framed b) (n : Nat) :
    ∃ arrived transit rest, b.sent = arrived ++ transit ∧
      b.deliver n = { b with
        wire := b.wire.drop n
        buffered := rest
        shown := arrived.map image
        acks := b.acks + 7 * (arrived.length - b.shown.length) } ∧
      b.shown.length ≤ arrived.length ∧ rest ++ b.wire.drop n = transit.flatMap send := by
  obtain ⟨arrived, transit, hsent, hshown, hwire⟩ := h.transit
  have hsizes : ∀ payload ∈ transit, payload.length = pixelsPerRow * pixelsPerCol :=
    fun payload hpayload => h.sizes payload (hsent ▸ List.mem_append_right _ hpayload)
  have hgood : ∀ payload ∈ transit, Sendable payload :=
    fun payload hpayload => sendable_of_length (hsizes payload hpayload)
  have hstream : (b.buffered ++ b.wire.take n) ++ b.wire.drop n = transit.flatMap send := by
    rw [List.append_assoc, List.take_append_drop, hwire]
  obtain ⟨more, later, left, rfl, hdrain, hleft⟩ :=
    delimits_send.drain_eq hgood hstream (Nat.le_refl _)
  have hall : (more.map image).filter (fun data => data.length = canvasSize) = more.map image := by
    refine List.filter_eq_self.mpr fun data hdata => ?_
    obtain ⟨payload, hpayload, rfl⟩ := List.mem_map.mp hdata
    exact decide_eq_true (length_image_of_length (hsizes payload (List.mem_append_left _ hpayload)))
  refine ⟨arrived ++ more, later, left, by rw [hsent, List.append_assoc], ?_, ?_, hleft⟩
  · unfold deliver
    simp only [hdrain, hall]
    simp only [ackFrameLength, List.length_map, hshown, List.map_append, List.length_append,
      Nat.add_sub_cancel_left]
  · rw [hshown, List.length_map, List.length_append]
    exact Nat.le_add_right _ _

theorem framed_deliver (h : Framed b) (n : Nat) : Framed (b.deliver n) := by
  obtain ⟨arrived, transit, rest, hsent, hdeliver, -, hrest⟩ := deliver_eq h n
  rw [hdeliver]
  exact ⟨h.sizes, arrived, transit, hsent, rfl, hrest⟩

theorem framed_step (h : Framed b) (hstep : Step b b') : Framed b' := by
  cases hstep with
  | cycle ticks =>
    rcases b.cycle_cases ticks with ⟨-, hcycle⟩ | ⟨-, hcycle⟩ <;>
      rw [hcycle] <;>
      exact ⟨h.sizes, h.transit⟩
  | guest s => exact ⟨h.sizes, h.transit⟩
  | move => exact ⟨h.sizes, h.transit⟩
  | fetch payload _ hp => exact framed_fetch h (moved_cases hp)
  | ack n => exact ⟨h.sizes, h.transit⟩
  | deliver n => exact framed_deliver h n
  | reconnect => exact ⟨fun _ hmem => absurd hmem List.not_mem_nil, [], [], rfl, rfl, rfl⟩

theorem framed_run {s : Bus} (h : Relation.ReflTransGen Step (start s) b) : Framed b := by
  induction h with
  | refl => exact framed_start s
  | tail _ hstep ih => exact framed_step ih hstep

/-- When nothing is on its way, the page has shown all. -/
theorem shown_of_arrived (h : Framed b) (hbuffered : b.buffered = []) (hempty : b.wire = []) :
    b.shown = b.sent.map image := by
  obtain ⟨arrived, transit, hsent, hshown, hwire⟩ := h.transit
  rw [hbuffered, hempty, List.append_nil] at hwire
  have hnone : transit = [] := by
    cases transit with
    | nil => rfl
    | cons payload transit => cases hwire
  rw [hshown, hsent, hnone, List.append_nil]

theorem shown_front (h : Framed b) : b.shown <+: b.sent.map image := by
  obtain ⟨arrived, transit, hsent, hshown, -⟩ := h.transit
  exact ⟨transit.map image, by rw [hshown, hsent, List.map_append]⟩

/-! ## The order of the pictures -/

theorem sent_published {initial : List RGB} (h : Ordered initial b) :
    (b.before ++ b.sent.map image).Sublist ((initial :: b.published).map image) := by
  unfold Ordered at h
  rw [List.map_append, ← List.append_assoc] at h
  exact (List.sublist_append_left _ _).trans h

theorem ordered_cycle {initial : List RGB} (h : Ordered initial b) (ticks : UInt8) :
    Ordered initial (b.cycle ticks) := by
  rcases b.cycle_cases ticks with ⟨hscreen, hcycle⟩ | ⟨hscreen, hcycle⟩
  · rw [hcycle]
    unfold Ordered
    simp only [current, Bool.false_eq_true, if_false, hscreen]
    rw [← List.cons_append, List.map_append, List.map_append, ← List.append_assoc]
    exact (sent_published h).append_right _
  · rw [hcycle]
    unfold Ordered current at h ⊢
    simp only [hscreen]
    exact h

theorem ordered_fetch {initial : List RGB} (h : Ordered initial b) :
    Ordered initial (b.fetch b.screen) := by
  rw [fetch_eq]
  show (b.before ++ (b.sent ++ b.current ++ []).map image).Sublist _
  rw [List.append_nil]
  exact h

theorem ordered_reconnect {initial : List RGB} (h : Ordered initial b) (hframed : Framed b) :
    Ordered initial b.reconnect := by
  refine List.Sublist.trans ?_ h
  show (b.before ++ b.shown ++ ([] ++ b.current).map image).Sublist _
  rw [List.nil_append, List.append_assoc, List.map_append]
  exact ((shown_front hframed).sublist.append_right _).append_left _

theorem raced_of_step (hstep : Step b b') (h : b'.raced = false) : b.raced = false := by
  cases hstep with
  | cycle ticks =>
    rcases b.cycle_cases ticks with ⟨-, hcycle⟩ | ⟨-, hcycle⟩
    · rw [hcycle] at h
      exact (Bool.or_eq_false_iff.mp h).1
    · rwa [hcycle] at h
  | fetch payload =>
    unfold fetch at h
    simp only at h
    split_ifs at h <;> exact h
  | guest | move | ack | deliver | reconnect => exact h

theorem ordered_step {initial : List RGB} (hraced : b'.raced = false)
    (h : Ordered initial b) (hframed : Framed b) (hstep : Step b b') : Ordered initial b' := by
  have hbefore := raced_of_step hstep hraced
  cases hstep with
  | cycle ticks => exact ordered_cycle h ticks
  | guest s hs =>
    unfold Ordered current at h ⊢
    simp only [hs]
    exact h
  | fetch payload _ hp =>
    rcases hp with rfl | ⟨hrace, -⟩
    · exact ordered_fetch h
    · exact absurd (hbefore.symm.trans hrace) Bool.false_ne_true
  | move => exact h
  | ack n => exact h
  | deliver n => exact h
  | reconnect => exact ordered_reconnect h hframed

theorem ordered_run {s : Bus} (h : Relation.ReflTransGen Step (start s) b)
    (hraced : b.raced = false) : Ordered (pixels s.gpu.screen) b := by
  induction h with
  | refl => exact List.Sublist.refl _
  | tail hrun hstep ih =>
    exact ordered_step hraced (ih (raced_of_step hstep hraced)) (framed_run hrun) hstep

/-- Whatever the emulation, the server and the page do in whatever order, and however the
bytes arrive, as long as no publication comes into a move of `m_screen`: but for the picture
that was there at the start, the page shows pictures that the graphics unit has published
only, whole, in the order of publication and none twice, and of a connection all that have
been sent but those that are on their way. -/
theorem shown_published {s : Bus} (h : Relation.ReflTransGen Step (start s) b)
    (hraced : b.raced = false) :
    (b.before ++ b.shown).Sublist ((pixels s.gpu.screen :: b.published).map image) ∧
      b.shown <+: b.sent.map image ∧
      (b.buffered = [] → b.wire = [] → b.shown = b.sent.map image) := by
  have hframed := framed_run h
  have hfront := shown_front hframed
  exact ⟨(hfront.sublist.append_left _).trans (sent_published (ordered_run h hraced)), hfront,
    shown_of_arrived hframed⟩

/-! ## Acknowledgements -/

theorem counted_of_empty (hwaiting : b.waiting = false) (hsent : b.sent = [])
    (hshown : b.shown = []) (hacks : b.acks = 0) : Counted b := by
  refine ⟨fun h => absurd (hwaiting.symm.trans h) Bool.false_ne_true, fun _ => hwaiting, ?_, ?_⟩ <;>
    rw [hwaiting, hsent, hshown, hacks] <;>
    exact Nat.le_refl 0

theorem counted_fetch (h : Counted b) (hmoving : b.moving = true) (payload : List RGB) :
    Counted (b.fetch payload) := by
  have hwaiting := h.moves hmoving
  by_cases hempty : payload = []
  · rw [hempty]
    exact ⟨h.waits, fun hfalse => absurd hfalse Bool.false_ne_true, h.most, h.least⟩
  · have hmost := h.most
    have hleast := h.least
    have hlength : (b.sent ++ [payload]).length - true.toNat =
        b.sent.length - b.waiting.toNat := by
      rw [hwaiting, List.length_append]
      rfl
    rw [fetch_cons b hempty]
    refine ⟨fun _ => by simp, fun hfalse => absurd hfalse Bool.false_ne_true, ?_, ?_⟩
    · show 7 * b.shown.length ≤ b.acks + 3 * ((b.sent ++ [payload]).length - true.toNat)
      rw [hlength]
      exact hmost
    · show b.acks + ((b.sent ++ [payload]).length - true.toNat) ≤ 7 * b.shown.length
      rw [hlength]
      exact hleast

theorem counted_ack (h : Counted b) (hwaiting : b.waiting = true) {n : Nat} (hpos : 0 < n)
    (hn : n ≤ ackLength) (hacks : n ≤ b.acks) : Counted (b.ack n) := by
  have hmost := h.most
  have hleast := h.least
  have hsent := List.length_pos_of_ne_nil (h.waits hwaiting)
  have hone : true.toNat = 1 := rfl
  rw [hwaiting, hone] at hmost hleast
  unfold ackLength at hn
  refine ⟨fun hfalse => absurd hfalse Bool.false_ne_true, fun _ => rfl, ?_, ?_⟩
  · show 7 * b.shown.length ≤ b.acks - n + 3 * b.sent.length
    omega
  · show b.acks - n + b.sent.length ≤ 7 * b.shown.length
    omega

theorem counted_step (h : Counted b) (hframed : Framed b) (hstep : Step b b') : Counted b' := by
  cases hstep with
  | cycle ticks =>
    rcases b.cycle_cases ticks with ⟨-, hcycle⟩ | ⟨-, hcycle⟩ <;>
      rw [hcycle] <;>
      exact ⟨h.waits, h.moves, h.most, h.least⟩
  | guest s => exact ⟨h.waits, h.moves, h.most, h.least⟩
  | move hwaiting => exact ⟨h.waits, fun _ => hwaiting, h.most, h.least⟩
  | fetch payload hmoving => exact counted_fetch h hmoving payload
  | ack n hwaiting hpos hn hacks => exact counted_ack h hwaiting hpos hn hacks
  | deliver n =>
    obtain ⟨arrived, transit, rest, -, hdeliver, hlength, -⟩ := deliver_eq hframed n
    have hmost := h.most
    have hleast := h.least
    rw [hdeliver]
    refine ⟨h.waits, h.moves, ?_, ?_⟩
    · simp only [List.length_map]
      omega
    · simp only [List.length_map]
      omega
  | reconnect => exact counted_of_empty rfl rfl rfl rfl

theorem counted_run {s : Bus} (h : Relation.ReflTransGen Step (start s) b) : Counted b := by
  induction h with
  | refl => exact counted_of_empty rfl rfl rfl rfl
  | tail hrun hstep ih => exact counted_step ih (framed_run hrun) hstep

/-- The server does not read the acknowledgements to their end: when the page shows all that
has been sent, at least four bytes of each are left, so that the next picture does not wait
for the page. What has been sent and what is left stay within seven for each picture shown. -/
theorem acks_left {s : Bus} (h : Relation.ReflTransGen Step (start s) b) :
    (b.sent.length ≤ b.shown.length → 4 * b.shown.length ≤ b.acks) ∧
      b.sent.length + b.acks ≤ 7 * b.shown.length + 1 := by
  obtain ⟨-, -, hmost, hleast⟩ := counted_run h
  have hwaiting : b.waiting.toNat ≤ 1 := b.waiting.toNat_le
  constructor
  · intro hshown
    omega
  · omega

/-! ## A picture on the page -/

theorem deliver_kept (b : Broadcast) (n : Nat) :
    (b.deliver n).published = b.published ∧ (b.deliver n).raced = b.raced ∧
      (b.deliver n).waiting = b.waiting ∧ (b.deliver n).sent = b.sent :=
  ⟨rfl, rfl, rfl, rfl⟩

/-- A frame that arrives at once. -/
theorem deliver_frame {payload : List RGB} (h : Sendable payload) (hbuffered : b.buffered = [])
    (hwire : b.wire = send payload) :
    (b.deliver (send payload).length).buffered = [] ∧
      (b.deliver (send payload).length).wire = [] := by
  obtain ⟨k, hk⟩ := Nat.exists_eq_add_one_of_ne_zero
    (mt List.length_eq_zero_iff.mp (delimits_send.ne_nil h))
  have hdrain : Codec.drain readMessage (send payload).length (send payload) =
      ([image payload], []) := by
    rw [hk, Codec.drain, delimits_send.whole _ h]
    simp only [Codec.drain_of_none delimits_send.empty]
  unfold deliver
  simp only [hbuffered, hwire, List.nil_append, List.take_length, List.drop_length, hdrain,
    and_self]

/-- Cycles from the start, with nothing else in between. -/
theorem cycles_start (s : Bus) (ts : List UInt8) : ∃ published,
    Relation.ReflTransGen Step (start s)
      { start (s.cycles ts) with published := published } := by
  induction ts using List.reverseRecOn with
  | nil => exact ⟨[], .refl⟩
  | append_singleton ts t ih =>
    obtain ⟨published, hrun⟩ := ih
    have hstep := Step.cycle { start (s.cycles ts) with published := published } t
    rw [Bus.cycles_append]
    rcases cycle_cases { start (s.cycles ts) with published := published } t with
      ⟨-, hcycle⟩ | ⟨-, hcycle⟩
    · rw [hcycle] at hstep
      exact ⟨_, hrun.tail hstep⟩
    · rw [hcycle] at hstep
      exact ⟨_, hrun.tail hstep⟩

/-- The server takes the picture in `m_screen`, and the page gets it. -/
theorem screen_arrives (s : Bus) (published : List (List RGB)) :
    ∃ b, Relation.ReflTransGen Step { start s with published := published } b ∧
      b.published = published ∧ b.raced = false ∧ b.waiting = true ∧
      b.sent = [pixels s.gpu.screen] ∧ b.buffered = [] ∧ b.wire = [] := by
  let taking : Broadcast := { start s with published := published, moving := true }
  obtain ⟨took, htook⟩ : ∃ b, b = taking.fetch (pixels s.gpu.screen) := ⟨_, rfl⟩
  have hmove : Step { start s with published := published } taking := .move _ rfl rfl
  have hfetch : Step taking took := htook ▸ .fetch taking _ rfl (.inl rfl)
  rw [fetch_cons taking (pixels_ne_nil _)] at htook
  have hwire : took.wire = send (pixels s.gpu.screen) := by
    rw [htook]
    exact List.nil_append _
  have hbuffered : took.buffered = [] := by rw [htook]; rfl
  obtain ⟨harrived, hleft⟩ :=
    deliver_frame (sendable_of_length (length_pixels s.gpu.screen)) hbuffered hwire
  obtain ⟨hpublished, hraced, hwaiting, hsent⟩ :=
    took.deliver_kept (send (pixels s.gpu.screen)).length
  refine ⟨_, ((Relation.ReflTransGen.single hmove).tail hfetch).tail (.deliver _ _),
    hpublished.trans ?_, hraced.trans ?_, hwaiting.trans ?_, hsent.trans ?_, harrived, hleft⟩
  · rw [htook]
  · rw [htook]
    rfl
  · rw [htook]
  · rw [htook]
    rfl

/-- The picture that is published after the lines of the first frame, on the page. -/
theorem shown_published_frame : ∃ (s : Bus) (before : List Event) (b : Broadcast),
    Trace.Run (Bus.Step fun _ _ => True) Bus.bareConsole.resetGpu
      (before ++ [.next .hblank .vblank]) s ∧
    Relation.ReflTransGen Step (start Bus.bareConsole.resetGpu) b ∧ b.raced = false ∧
    b.published.getLast? = some (pixels s.gpu.buffer) ∧
    b.shown = [image (pixels s.gpu.buffer)] ∧
    (b.before ++ b.shown).Sublist
      ((pixels Bus.bareConsole.resetGpu.gpu.screen :: b.published).map image) := by
  obtain ⟨ts, before, hframe, hon⟩ := Bus.entry_run .bareConsole
  obtain ⟨earlier, hcycles⟩ := cycles_start Bus.bareConsole.resetGpu ts
  generalize Bus.bareConsole.resetGpu.cycles ts = s at hframe hon hcycles
  have hpublish : .publish ∈ (s.cycle 4).2 := by
    refine List.mem_of_mem_filter (p := Event.ofFrame) ?_
    rw [Bus.entry_shown hframe hon (by decide)]
    exact List.mem_cons_of_mem _ List.mem_cons_self
  have hscreen := ((s.cycle_happened 4).published hpublish).1
  have hcycle : ({ start s with published := earlier } : Broadcast).cycle 4 =
      { start (s.cycle 4).1 with published := earlier ++ [pixels s.gpu.buffer] } := if_pos hpublish
  obtain ⟨b, hrun, hpublished, hraced, -, hsent, hbuffered, hwire⟩ :=
    screen_arrives (s.cycle 4).1 (earlier ++ [pixels s.gpu.buffer])
  have hall := (hcycles.tail (.cycle _ 4)).trans (hcycle ▸ hrun)
  obtain ⟨hsublist, -, harrived⟩ := shown_published hall hraced
  refine ⟨s, before, b, hframe, hall, hraced, ?_, ?_, hsublist⟩
  · rw [hpublished, List.getLast?_concat]
  · rw [harrived hbuffered hwire, hsent, hscreen, List.map_singleton]

/-- The server has read three of the seven bytes that acknowledge the first picture. -/
theorem acks_left_first : ∃ b, Relation.ReflTransGen Step (start .bareConsole) b ∧
    b.waiting = false ∧ b.shown.length = 1 ∧ b.acks = 4 ∧ 4 * b.shown.length ≤ b.acks := by
  obtain ⟨b, hrun, -, -, hwaiting, hsent, hbuffered, hwire⟩ := screen_arrives .bareConsole []
  have hshown := shown_of_arrived (framed_run hrun) hbuffered hwire
  have hone : b.shown.length = 1 := by
    rw [hshown, hsent]
    rfl
  obtain ⟨-, -, hmost, hleast⟩ := counted_run hrun
  rw [hwaiting, hsent, hone] at hmost hleast
  have hseven : b.acks = 7 := Nat.le_antisymm hleast hmost
  have hread : 3 ≤ b.acks := by rw [hseven]; decide
  have hacked := hrun.tail (.ack b 3 hwaiting (by decide) (Nat.le_refl 3) hread)
  have hall : (b.ack 3).sent.length ≤ (b.ack 3).shown.length := by
    show b.sent.length ≤ b.shown.length
    rw [hsent, hone]
    exact Nat.le_refl 1
  exact ⟨b.ack 3, hacked, rfl, hone, congrArg (· - 3) hseven, (acks_left hacked).1 hall⟩

end Broadcast

end GbEmu
