import Mathlib.Logic.Relation
import Mathlib.Tactic.SplitIfs
import GbEmu.ConsoleLink.Threads
import GbEmu.Lib.Run

/-!
Two consoles on one connection: both run the threads of `ConsoleLink`, and the bytes that
one writes the other reads in order. A guest waits for the end of its transfer before it
starts the next, as the hardware asks for.
-/

namespace GbEmu

/-- A console, with the bytes of the connection that are on their way to it. -/
structure Party where
  threads : LinkThreads
  incoming : List UInt8
  /-- What the guest has started a transfer of. -/
  submitted : List UInt8

inductive Side
  | left
  | right
  deriving DecidableEq, Repr

structure Consoles where
  left : Party
  right : Party

namespace Party

/-- What the guest found in SB at the end of its transfers. -/
def finished (p : Party) : List UInt8 := p.threads.finished.map Prod.fst

def withThreads (p : Party) (t : LinkThreads) : Party := { p with threads := t }

/-- A step, with what it writes to the connection, which neither fails nor ends. -/
def act (p : Party) (a : LinkAction) : Option (Party × List UInt8) :=
  match a with
  | .transfer data =>
    if p.threads.link.state = .pending then none
    else
      (p.threads.step a).map fun t =>
        ({ p with threads := t, submitted := p.submitted ++ [data] }, [])
  | .wr true =>
    match p.threads.server with
    | .wr data _ => (p.threads.step a).map fun t => (p.withThreads t, [data])
    | _ => none
  | .rd (some data) =>
    match p.incoming with
    | next :: rest =>
      if next = data then
        (p.threads.step a).map fun t => ({ p with threads := t, incoming := rest }, [])
      else none
    | [] => none
  | .cycle _ _ | .emulation | .server => (p.threads.step a).map fun t => (p.withThreads t, [])
  | .connect | .wr false | .rd none => none

def deliver (p : Party) (bytes : List UInt8) : Party :=
  { p with incoming := p.incoming ++ bytes }

/-- After the constructor, with the connection established. -/
def connected (txData rxData : UInt8) : Party where
  threads :=
    { LinkThreads.constructed txData rxData with
      link := { (LinkThreads.constructed txData rxData).link with connected := true }
      server := .loadTxReady }
  incoming := []
  submitted := []

end Party

namespace Consoles

def step (c : Consoles) (side : Side) (a : LinkAction) : Option Consoles :=
  match side with
  | .left => (c.left.act a).map fun (p, bytes) => ⟨p, c.right.deliver bytes⟩
  | .right => (c.right.act a).map fun (p, bytes) => ⟨c.left.deliver bytes, p⟩

def Step (c c' : Consoles) : Prop := ∃ side a, c.step side a = some c'

def run (c : Consoles) (actions : List (Side × LinkAction)) : Option Consoles :=
  actions.foldlM (fun c (x : Side × LinkAction) => c.step x.1 x.2) c

end Consoles

/-! ## A transfer from its start to its end -/

/-- How far the latest transfer is. -/
inductive Progress
  | idle
  | unsent (data : UInt8)
  | sent
  | answered (data : UInt8)

namespace Progress

def unsentBytes : Progress → List UInt8
  | unsent data => [data]
  | _ => []

def answeredBytes : Progress → List UInt8
  | answered data => [data]
  | _ => []

/-- Whether the link thread owes the connection a read. -/
def owed : Progress → Nat
  | sent => 1
  | _ => 0

end Progress

namespace LinkThreads

/-- The emulation thread does not touch the mailboxes. -/
def Polls (pc : EmulationPc) : Prop :=
  pc = .idle ∨ pc = .drain ∨ pc = .loadRxReady ∨ pc = .checkConnected

/-- The places of both threads while the latest transfer is as far as `g`. -/
inductive Phase (t : LinkThreads) : Progress → Prop
  | idle (hs : t.link.state = .idle ∨ t.link.state = .disconnected)
      (he : t.emulation = .idle ∨ t.emulation = .drain) (hv : t.server = .loadTxReady)
      (htx : t.link.txReady = false) (hrx : t.link.rxReady = false) : Phase t .idle
  | submitting {data : UInt8}
      (he : t.emulation = .loadConnected data ∨
        t.link.state = .pending ∧ t.emulation = .storeTxData data ∨
        t.link.state = .pending ∧ t.emulation = .storeTxReady ∧ t.link.txData = data)
      (hv : t.server = .loadTxReady) (htx : t.link.txReady = false)
      (hrx : t.link.rxReady = false) : Phase t (.unsent data)
  | submitted {data : UInt8} (hs : t.link.state = .pending) (he : Polls t.emulation)
      (hv : t.server = .loadTxReady ∨ t.server = .loadRxReady ∨ t.server = .clearTxReady)
      (htx : t.link.txReady = true) (hd : t.link.txData = data)
      (hrx : t.link.rxReady = false) : Phase t (.unsent data)
  | taken {data : UInt8} (hs : t.link.state = .pending) (he : Polls t.emulation)
      (hv : t.server = .loadTxData ∧ t.link.txData = data ∨ ∃ own, t.server = .wr data own)
      (htx : t.link.txReady = false) (hrx : t.link.rxReady = false) : Phase t (.unsent data)
  | reading (hs : t.link.state = .pending) (he : Polls t.emulation)
      (hv : ∃ own, t.server = .rd own) (htx : t.link.txReady = false)
      (hrx : t.link.rxReady = false) : Phase t .sent
  | received {data : UInt8} (hs : t.link.state = .pending) (he : Polls t.emulation)
      (hv : t.server = .storeRxData data ∨ t.server = .storeRxReady ∧ t.link.rxData = data)
      (htx : t.link.txReady = false) (hrx : t.link.rxReady = false) : Phase t (.answered data)
  | ready {data : UInt8} (hs : t.link.state = .pending)
      (he : Polls t.emulation ∨ t.emulation = .clearRxReady true) (hv : t.server = .loadTxReady)
      (htx : t.link.txReady = false) (hrx : t.link.rxReady = true)
      (hd : t.link.rxData = data) : Phase t (.answered data)
  | cleared {data : UInt8} (hs : t.link.state = .pending) (he : t.emulation = .loadRxData true)
      (hv : t.server = .loadTxReady) (htx : t.link.txReady = false)
      (hrx : t.link.rxReady = false) (hd : t.link.rxData = data) : Phase t (.answered data)

section Steps

variable {t t' : LinkThreads} {g : Progress}

/-- Polling goes on, or comes to an end because a response is ready. -/
theorem polls_step (hc : t.link.connected = true) (hs : t.link.state = .pending)
    (he : Polls t.emulation) (h : t.emulationStep = some t') :
    ∃ pc ticks, t' = { t with link := { t.link with ticks := ticks }, emulation := pc } ∧
      (Polls pc ∨ t.link.rxReady = true ∧ pc = .clearRxReady true) := by
  unfold emulationStep at h
  rcases he with he | he | he | he
  · simp [he] at h
  · simp only [he] at h
    split_ifs at h with hticks
    · obtain rfl := Option.some.inj h
      refine ⟨.loadRxReady, t.link.ticks - t.count, ?_, .inl (.inr (.inr (.inl rfl)))⟩
      simp only [check, hs]
    · obtain rfl := Option.some.inj h
      exact ⟨.idle, t.link.ticks, rfl, .inl (.inl rfl)⟩
  · simp only [he] at h
    obtain rfl := Option.some.inj h
    cases hrx : t.link.rxReady with
    | false => exact ⟨.checkConnected, t.link.ticks, by simp [← hrx], .inl (.inr (.inr (.inr rfl)))⟩
    | true => exact ⟨.clearRxReady true, t.link.ticks, by simp [← hrx], .inr ⟨rfl, rfl⟩⟩
  · simp only [he, hc, if_true] at h
    obtain rfl := Option.some.inj h
    exact ⟨.loadRxReady, t.link.ticks, rfl, .inl (.inr (.inr (.inl rfl)))⟩

theorem emulationStep_phase (hc : t.link.connected = true) (h : t.Phase g)
    (hstep : t.emulationStep = some t') :
    t'.link.connected = true ∧ (t'.Phase g ∧ t'.finished = t.finished ∨
      ∃ data, g = .answered data ∧ t'.Phase .idle ∧
        t'.finished.map Prod.fst = t.finished.map Prod.fst ++ [data]) := by
  cases h with
  | idle hs he hv htx hrx =>
    unfold emulationStep at hstep
    rcases he with he | he
    · simp [he] at hstep
    · rw [he] at hstep
      dsimp only at hstep
      split_ifs at hstep with hticks
      · obtain rfl := Option.some.inj hstep
        have hcheck : ∀ u : LinkThreads, u.link.state = t.link.state → u.check = u := by
          intro u hu
          unfold check
          rcases hs with hs | hs <;> rw [hu, hs]
        refine (hcheck _ ?_).symm ▸ ⟨hc, .inl ⟨.idle hs (.inr rfl) hv htx hrx, rfl⟩⟩
        rfl
      · obtain rfl := Option.some.inj hstep
        exact ⟨hc, .inl ⟨.idle hs (.inl rfl) hv htx hrx, rfl⟩⟩
  | submitting he hv htx hrx =>
    unfold emulationStep at hstep
    rcases he with he | ⟨hs, he⟩ | ⟨hs, he, hd⟩
    · simp only [he, hc, if_true] at hstep
      obtain rfl := Option.some.inj hstep
      exact ⟨rfl, .inl ⟨.submitting (.inr (.inl ⟨rfl, rfl⟩)) hv htx hrx, rfl⟩⟩
    · simp only [he] at hstep
      obtain rfl := Option.some.inj hstep
      exact ⟨hc, .inl ⟨.submitting (.inr (.inr ⟨hs, rfl, rfl⟩)) hv htx hrx, rfl⟩⟩
    · simp only [he] at hstep
      obtain rfl := Option.some.inj hstep
      exact ⟨hc, .inl ⟨.submitted hs (.inl rfl) (.inl hv) rfl hd hrx, rfl⟩⟩
  | submitted hs he hv htx hd hrx =>
    obtain ⟨pc, ticks, rfl, hpc⟩ := polls_step hc hs he hstep
    simp only [hrx, Bool.false_eq_true, false_and, or_false] at hpc
    exact ⟨hc, .inl ⟨.submitted hs hpc hv htx hd hrx, rfl⟩⟩
  | taken hs he hv htx hrx =>
    obtain ⟨pc, ticks, rfl, hpc⟩ := polls_step hc hs he hstep
    simp only [hrx, Bool.false_eq_true, false_and, or_false] at hpc
    exact ⟨hc, .inl ⟨.taken hs hpc hv htx hrx, rfl⟩⟩
  | reading hs he hv htx hrx =>
    obtain ⟨pc, ticks, rfl, hpc⟩ := polls_step hc hs he hstep
    simp only [hrx, Bool.false_eq_true, false_and, or_false] at hpc
    exact ⟨hc, .inl ⟨.reading hs hpc hv htx hrx, rfl⟩⟩
  | received hs he hv htx hrx =>
    obtain ⟨pc, ticks, rfl, hpc⟩ := polls_step hc hs he hstep
    simp only [hrx, Bool.false_eq_true, false_and, or_false] at hpc
    exact ⟨hc, .inl ⟨.received hs hpc hv htx hrx, rfl⟩⟩
  | ready hs he hv htx hrx hd =>
    rcases he with he | he
    · obtain ⟨pc, ticks, rfl, hpc⟩ := polls_step hc hs he hstep
      exact ⟨hc, .inl ⟨.ready hs (hpc.imp_right And.right) hv htx hrx hd, rfl⟩⟩
    · unfold emulationStep at hstep
      simp only [he] at hstep
      obtain rfl := Option.some.inj hstep
      exact ⟨hc, .inl ⟨.cleared hs rfl hv htx rfl hd, rfl⟩⟩
  | @cleared data hs he hv htx hrx hd =>
    unfold emulationStep at hstep
    simp only [he] at hstep
    obtain rfl := Option.some.inj hstep
    refine ⟨hc, .inr ⟨data, rfl, .idle (.inl ?_) (.inr rfl) hv htx hrx, ?_⟩⟩
    · simp [finishTransfer, ConsoleLink.finishState, hs]
    · simp [finishTransfer, hd]

/-- The steps of `serverLoop` between the calls of `wr` and `rd`. -/
theorem serverStep_phase (h : t.Phase g) (hstep : t.serverStep = some t') :
    t'.link.connected = t.link.connected ∧ t'.Phase g ∧ t'.finished = t.finished := by
  unfold serverStep at hstep
  cases h with
  | idle hs he hv htx hrx =>
    simp only [hv, htx, Bool.false_eq_true, if_false] at hstep
    obtain rfl := Option.some.inj hstep
    exact ⟨rfl, .idle hs he rfl htx hrx, rfl⟩
  | submitting he hv htx hrx =>
    simp only [hv, htx, Bool.false_eq_true, if_false] at hstep
    obtain rfl := Option.some.inj hstep
    exact ⟨rfl, .submitting he rfl htx hrx, rfl⟩
  | submitted hs he hv htx hd hrx =>
    rcases hv with hv | hv | hv
    · simp only [hv, htx, if_true] at hstep
      obtain rfl := Option.some.inj hstep
      exact ⟨rfl, .submitted hs he (.inr (.inl rfl)) htx hd hrx, rfl⟩
    · simp only [hv, hrx, Bool.false_eq_true, if_false] at hstep
      obtain rfl := Option.some.inj hstep
      exact ⟨rfl, .submitted hs he (.inr (.inr rfl)) htx hd hrx, rfl⟩
    · simp only [hv] at hstep
      obtain rfl := Option.some.inj hstep
      exact ⟨rfl, .taken hs he (.inl ⟨rfl, hd⟩) rfl hrx, rfl⟩
  | taken hs he hv htx hrx =>
    rcases hv with ⟨hv, hd⟩ | ⟨own, hv⟩
    · simp only [hv] at hstep
      obtain rfl := Option.some.inj hstep
      exact ⟨rfl, .taken hs he (.inr ⟨t.own, by rw [hd]⟩) htx hrx, rfl⟩
    · simp [hv] at hstep
  | reading hs he hv htx hrx =>
    obtain ⟨own, hv⟩ := hv
    simp [hv] at hstep
  | received hs he hv htx hrx =>
    rcases hv with hv | ⟨hv, hd⟩
    · simp only [hv] at hstep
      obtain rfl := Option.some.inj hstep
      exact ⟨rfl, .received hs he (.inr ⟨rfl, rfl⟩) htx hrx, rfl⟩
    · simp only [hv] at hstep
      obtain rfl := Option.some.inj hstep
      exact ⟨rfl, .ready hs (.inl he) rfl htx rfl hd, rfl⟩
  | ready hs he hv htx hrx hd =>
    simp only [hv, htx, Bool.false_eq_true, if_false] at hstep
    obtain rfl := Option.some.inj hstep
    exact ⟨rfl, .ready hs he rfl htx hrx hd, rfl⟩
  | cleared hs he hv htx hrx hd =>
    simp only [hv, htx, Bool.false_eq_true, if_false] at hstep
    obtain rfl := Option.some.inj hstep
    exact ⟨rfl, .cleared hs he rfl htx hrx hd, rfl⟩

end Steps

end LinkThreads

/-! ## One party -/

namespace Party

variable {p p' : Party} {a : LinkAction} {sent received out : List UInt8}

/-- What the party has written to the connection and read from it. -/
structure Exchanged (p : Party) (sent received : List UInt8) (g : Progress) : Prop where
  phase : p.threads.Phase g
  connected : p.threads.link.connected = true
  submitted_eq : p.submitted = sent ++ g.unsentBytes
  received_eq : received = p.finished ++ g.answeredBytes
  /-- Each byte is answered before the next is sent. -/
  turns : sent.length = received.length + g.owed

/-- A step of the threads that writes nothing and reads nothing. -/
theorem Exchanged.withThreads {g g' : Progress} {t : LinkThreads}
    (h : p.Exchanged sent received g) (hphase : t.Phase g') (hconn : t.link.connected = true)
    (hunsent : g'.unsentBytes = g.unsentBytes) (howed : g'.owed = g.owed)
    (hfinished : t.finished.map Prod.fst ++ g'.answeredBytes = p.finished ++ g.answeredBytes) :
    (p.withThreads t).Exchanged sent received g' :=
  ⟨hphase, hconn, hunsent ▸ h.submitted_eq, h.received_eq.trans hfinished.symm, howed ▸ h.turns⟩

theorem act_transfer {data : UInt8} {g : Progress} {t : LinkThreads}
    (h : p.Exchanged sent received g) (hstate : p.threads.link.state ≠ .pending)
    (ht : p.threads.step (.transfer data) = some t) :
    Exchanged { p with threads := t, submitted := p.submitted ++ [data] } sent received
      (.unsent data) := by
  obtain ⟨hphase, hconn, hsub, hrec, hturns⟩ := h
  cases hphase with
  | idle hs he hv htx hrx =>
    cases hpc : p.threads.emulation <;> simp only [LinkThreads.step, hpc, reduceCtorEq] at ht
    obtain rfl := Option.some.inj ht
    refine ⟨.submitting (.inl rfl) ?_ htx hrx, hconn, ?_, hrec, hturns⟩
    · simp only [hv, LinkThreads.disown]
    · rw [hsub]
      simp [Progress.unsentBytes]
  | submitting he hv htx hrx =>
    rcases he with he | ⟨hs, -⟩ | ⟨hs, -⟩
    · simp [LinkThreads.step, he] at ht
    · exact absurd hs hstate
    · exact absurd hs hstate
  | submitted hs | taken hs | reading hs | received hs | ready hs | cleared hs =>
    exact absurd hs hstate

theorem act_cycle {ticks control : UInt8} {g : Progress} {t : LinkThreads}
    (h : p.Exchanged sent received g) (ht : p.threads.step (.cycle ticks control) = some t) :
    (p.withThreads t).Exchanged sent received g := by
  cases hpc : p.threads.emulation <;> simp only [LinkThreads.step, hpc, reduceCtorEq] at ht
  obtain rfl := Option.some.inj ht
  refine h.withThreads ?_ h.connected rfl rfl rfl
  have hpolls : LinkThreads.Polls .drain := .inr (.inl rfl)
  cases h.phase with
  | idle hs he hv htx hrx => exact .idle hs (.inr rfl) hv htx hrx
  | submitting he => simp [hpc] at he
  | submitted hs he hv htx hd hrx => exact .submitted hs hpolls hv htx hd hrx
  | taken hs he hv htx hrx => exact .taken hs hpolls hv htx hrx
  | reading hs he hv htx hrx => exact .reading hs hpolls hv htx hrx
  | received hs he hv htx hrx => exact .received hs hpolls hv htx hrx
  | ready hs he hv htx hrx hd => exact .ready hs (.inl hpolls) hv htx hrx hd
  | cleared hs he => simp [hpc] at he

theorem act_wr {data : UInt8} {own : Bool} {g : Progress} {t : LinkThreads}
    (h : p.Exchanged sent received g) (hv : p.threads.server = .wr data own)
    (ht : p.threads.step (.wr true) = some t) :
    (p.withThreads t).Exchanged (sent ++ [data]) received .sent := by
  obtain ⟨hphase, hconn, hsub, hrec, hturns⟩ := h
  simp only [LinkThreads.step, hv, if_true] at ht
  obtain rfl := Option.some.inj ht
  cases hphase with
  | taken hs he hv' htx hrx =>
    rcases hv' with ⟨hv', -⟩ | ⟨own', hv'⟩
    · simp [hv] at hv'
    · obtain ⟨rfl, rfl⟩ := ServerPc.wr.inj (hv.symm.trans hv')
      refine ⟨.reading hs he ⟨own, rfl⟩ htx hrx, hconn, ?_, hrec, ?_⟩
      · exact hsub.trans (List.append_nil _).symm
      · simpa [Progress.owed] using hturns
  | idle hs he hv' | submitting he hv' | submitted hs he hv' | reading hs he hv'
  | received hs he hv' | ready hs he hv' | cleared hs he hv' => simp [hv] at hv'

theorem act_rd {data : UInt8} {g : Progress} {t : LinkThreads} {rest : List UInt8}
    (h : p.Exchanged sent received g) (ht : p.threads.step (.rd (some data)) = some t) :
    Exchanged { p with threads := t, incoming := rest } sent (received ++ [data])
      (.answered data) := by
  obtain ⟨hphase, hconn, hsub, hrec, hturns⟩ := h
  cases hv : p.threads.server <;> simp only [LinkThreads.step, hv, reduceCtorEq] at ht
  obtain rfl := Option.some.inj ht
  cases hphase with
  | reading hs he hv' htx hrx =>
    refine ⟨.received hs he (.inl rfl) htx hrx, hconn, hsub, ?_, ?_⟩
    · rw [hrec]
      simp [Progress.answeredBytes, finished]
    · simpa [Progress.owed] using hturns
  | idle hs he hv' | submitting he hv' | submitted hs he hv' | taken hs he hv'
  | received hs he hv' | ready hs he hv' | cleared hs he hv' => simp [hv] at hv'

/-- What a step writes, and what it takes from the bytes on their way. -/
theorem act_exchanged {g : Progress} (h : p.Exchanged sent received g)
    (hstep : p.act a = some (p', out)) : ∃ got g', p.incoming = got ++ p'.incoming ∧
      p'.Exchanged (sent ++ out) (received ++ got) g' := by
  have hsilent : ∀ {q : Party}, (∃ g', q.Exchanged sent received g') → q.incoming = p.incoming →
      ∃ got g', p.incoming = got ++ q.incoming ∧
        q.Exchanged (sent ++ []) (received ++ got) g' := by
    rintro q ⟨g', hq⟩ hin
    exact ⟨[], g', hin.symm, by simpa using hq⟩
  cases a with
  | transfer data =>
    unfold act at hstep
    split_ifs at hstep with hstate
    obtain ⟨t, ht, heq⟩ := Option.map_eq_some_iff.mp hstep
    obtain ⟨rfl, rfl⟩ := Prod.mk.inj heq
    exact hsilent ⟨_, act_transfer h hstate ht⟩ rfl
  | cycle ticks control =>
    obtain ⟨t, ht, heq⟩ := Option.map_eq_some_iff.mp hstep
    obtain ⟨rfl, rfl⟩ := Prod.mk.inj heq
    exact hsilent ⟨_, act_cycle h ht⟩ rfl
  | emulation =>
    obtain ⟨t, ht, heq⟩ := Option.map_eq_some_iff.mp hstep
    obtain ⟨rfl, rfl⟩ := Prod.mk.inj heq
    obtain ⟨hconn, hnext⟩ := LinkThreads.emulationStep_phase h.connected h.phase ht
    rcases hnext with ⟨hphase, hfin⟩ | ⟨data, rfl, hphase, hfin⟩
    · exact hsilent ⟨_, h.withThreads hphase hconn rfl rfl (by rw [hfin]; rfl)⟩ rfl
    · refine hsilent ⟨_, h.withThreads hphase hconn rfl rfl ?_⟩ rfl
      rw [hfin]
      exact List.append_nil _
  | server =>
    obtain ⟨t, ht, heq⟩ := Option.map_eq_some_iff.mp hstep
    obtain ⟨rfl, rfl⟩ := Prod.mk.inj heq
    obtain ⟨hconn, hphase, hfin⟩ := LinkThreads.serverStep_phase h.phase ht
    have hconn' := hconn.trans h.connected
    exact hsilent ⟨_, h.withThreads hphase hconn' rfl rfl (by rw [hfin]; rfl)⟩ rfl
  | connect => cases hstep
  | wr ok =>
    cases ok with
    | false => cases hstep
    | true =>
      cases hv : p.threads.server <;> simp only [act, hv, reduceCtorEq] at hstep
      obtain ⟨t, ht, heq⟩ := Option.map_eq_some_iff.mp hstep
      obtain ⟨rfl, rfl⟩ := Prod.mk.inj heq
      exact ⟨[], .sent, rfl, by simpa using act_wr h hv ht⟩
  | rd response =>
    cases response with
    | none => cases hstep
    | some data =>
      cases hin : p.incoming with
      | nil => simp [act, hin] at hstep
      | cons next rest =>
        simp only [act, hin] at hstep
        split_ifs at hstep with hnext
        obtain ⟨t, ht, heq⟩ := Option.map_eq_some_iff.mp hstep
        obtain ⟨rfl, rfl⟩ := Prod.mk.inj heq
        exact ⟨[data], .answered data, by rw [hnext]; rfl, by simpa using act_rd h ht⟩

theorem connected_exchanged (txData rxData : UInt8) :
    (connected txData rxData).Exchanged [] [] .idle :=
  ⟨.idle (.inr rfl) (.inl rfl) rfl rfl rfl, rfl, rfl, rfl, rfl⟩

end Party

/-! ## Both -/

namespace Consoles

/-- What one has written, the other has read or will read, in this order. -/
def Inv (c : Consoles) : Prop :=
  ∃ sent received sent' received' g g',
    c.left.Exchanged sent received g ∧ c.right.Exchanged sent' received' g' ∧
      sent = received' ++ c.right.incoming ∧ sent' = received ++ c.left.incoming

theorem step_inv {c c' : Consoles} (h : c.Inv) (hstep : c.Step c') : c'.Inv := by
  obtain ⟨sent, received, sent', received', g, g', hleft, hright, hout, hout'⟩ := h
  obtain ⟨side, a, hstep⟩ := hstep
  cases side with
  | left =>
    obtain ⟨⟨p, bytes⟩, hact, rfl⟩ := Option.map_eq_some_iff.mp hstep
    obtain ⟨got, g'', hin, hp⟩ := Party.act_exchanged hleft hact
    refine ⟨sent ++ bytes, received ++ got, sent', received', g'', g', hp,
      ⟨hright.phase, hright.connected, hright.submitted_eq, hright.received_eq, hright.turns⟩,
      ?_, ?_⟩
    · rw [hout, List.append_assoc]
      rfl
    · rw [hout', hin, List.append_assoc]
  | right =>
    obtain ⟨⟨p, bytes⟩, hact, rfl⟩ := Option.map_eq_some_iff.mp hstep
    obtain ⟨got, g'', hin, hp⟩ := Party.act_exchanged hright hact
    refine ⟨sent, received, sent' ++ bytes, received' ++ got, g, g'',
      ⟨hleft.phase, hleft.connected, hleft.submitted_eq, hleft.received_eq, hleft.turns⟩, hp,
      ?_, ?_⟩
    · rw [hout, hin, List.append_assoc]
    · rw [hout', List.append_assoc]
      rfl

variable {txData rxData txData' rxData' : UInt8} {c : Consoles}

/-- Both after the constructor, on one connection. -/
def connected (txData rxData txData' rxData' : UInt8) : Consoles :=
  ⟨.connected txData rxData, .connected txData' rxData'⟩

theorem inv_of_run
    (h : Relation.ReflTransGen Step (connected txData rxData txData' rxData') c) : c.Inv := by
  induction h with
  | refl =>
    exact ⟨[], [], [], [], .idle, .idle, Party.connected_exchanged _ _,
      Party.connected_exchanged _ _, rfl, rfl⟩
  | tail _ hstep ih => exact step_inv ih hstep

/-- What a party has finished is in front of what the other has submitted. -/
theorem finished_in_front {p q : Party} {sent received sent' received' : List UInt8}
    {g g' : Progress} (hp : p.Exchanged sent received g) (hq : q.Exchanged sent' received' g')
    (hout : sent' = received ++ p.incoming) : p.finished <+: q.submitted := by
  refine ⟨g.answeredBytes ++ p.incoming ++ g'.unsentBytes, ?_⟩
  rw [hq.submitted_eq, hout, hp.received_eq]
  simp only [List.append_assoc]

/-- **The bytes are swapped.** In every interleaving of the four threads, the `k`-th transfer
of a guest ends with the byte of the other's `k`-th transfer: none is lost, doubled or out of
order, and no transfer ends before the other side has started its own. -/
theorem transfers_swapped
    (h : Relation.ReflTransGen Step (connected txData rxData txData' rxData') c) :
    c.left.finished <+: c.right.submitted ∧ c.right.finished <+: c.left.submitted := by
  obtain ⟨sent, received, sent', received', g, g', hleft, hright, hout, hout'⟩ :=
    inv_of_run h
  exact ⟨finished_in_front hleft hright hout', finished_in_front hright hleft hout⟩

/-- Each guest starts a transfer, and the link threads write the bytes. -/
def bothStarted : List (Side × LinkAction) :=
  [.left, .right].flatMap fun side =>
    (side, LinkAction.transfer (if side = .left then 0x12 else 0x34)) ::
      ([.emulation, .emulation, .emulation, .server, .server, .server, .server,
        .wr true] : List LinkAction).map fun a => (side, a)

/-- The link threads read them, and `cycle` ends the transfers. -/
def bothEnded : List (Side × LinkAction) :=
  [.left, .right].flatMap fun side =>
    (side, LinkAction.rd (some (if side = .left then 0x34 else 0x12))) ::
      ([.server, .server, .cycle 0xFF 0x02, .emulation, .emulation, .emulation,
        .emulation] : List LinkAction).map fun a => (side, a)

theorem reflTransGen_of_run {c c' : Consoles} {actions : List (Side × LinkAction)}
    (h : c.run actions = some c') : Relation.ReflTransGen Step c c' :=
  Run.reflTransGen_of_foldlM (fun _ x _ hx => ⟨x.1, x.2, hx⟩) h

theorem transfers_swapped_once : ∃ c : Consoles,
    c.left.finished = [0x34] ∧ c.right.finished = [0x12] ∧
      c.left.finished <+: c.right.submitted ∧ c.right.finished <+: c.left.submitted := by
  have hsteps : ((connected 0 0 0 0).run (bothStarted ++ bothEnded)).map
      (fun c => (c.left.finished, c.right.finished)) = some ([0x34], [0x12]) := by decide
  obtain ⟨c, hc, hfinished⟩ := Option.map_eq_some_iff.mp hsteps
  obtain ⟨hl, hr⟩ := Prod.mk.inj hfinished
  exact ⟨c, hl, hr, transfers_swapped (reflTransGen_of_run hc)⟩

end Consoles

/-! ## No deadlock -/

namespace LinkThreads

/-- The steps of the emulation thread up to its read of the response. -/
def pollsLeft (t : LinkThreads) : Nat :=
  match t.emulation with
  | .clearRxReady _ => 2
  | .loadRxReady => 3
  | .checkConnected => 4
  | .drain => if t.count ≤ t.link.ticks then 4 else 6
  | .idle => 5
  | _ => 0

/-- At least the number of steps of a submitted transfer up to its end. -/
def serverLeft (t : LinkThreads) : Nat :=
  match t.server with
  | .loadTxReady => if t.link.txReady then 14 else if t.link.rxReady then t.pollsLeft else 0
  | .loadRxReady => 13
  | .clearTxReady => 12
  | .loadTxData => 11
  | .wr _ _ => 10
  | .rd _ => 9
  | .storeRxData _ => 8
  | .storeRxReady => 7
  | .failed | .disconnected => 0

/-- The same for a transfer. -/
def remaining (t : LinkThreads) : Nat :=
  match t.emulation with
  | .loadConnected _ => 17
  | .storeTxData _ => 16
  | .storeTxReady => 15
  | .loadRxData _ => 1
  | _ => t.serverLeft

theorem remaining_polls {t : LinkThreads} (he : Polls t.emulation) :
    t.remaining = t.serverLeft := by
  rcases he with he | he | he | he <;> simp only [remaining, he]

/-- A step of the link thread comes nearer to the end. -/
theorem server_advances {t : LinkThreads} (t' : LinkThreads) (he : Polls t.emulation)
    (he' : t'.emulation = t.emulation) (h : t'.serverLeft < t.serverLeft) :
    t'.remaining < t.remaining := by
  rwa [remaining_polls he, remaining_polls (he' ▸ he)]

theorem pollsLeft_lt (t : LinkThreads) : t.pollsLeft < 7 := by
  unfold pollsLeft
  cases t.emulation <;> dsimp only <;> first | split_ifs <;> omega | omega

/-- Steps that write nothing and read nothing. -/
def Silent (a : LinkAction) : Prop := a = .cycle 0xFF 0x02 ∨ a = .emulation ∨ a = .server

theorem remaining_ready (t : LinkThreads) (hv : t.server = .loadTxReady)
    (htx : t.link.txReady = false) (hrx : t.link.rxReady = true)
    (he : Polls t.emulation ∨ t.emulation = .clearRxReady true) : t.remaining = t.pollsLeft := by
  rcases he with he | he
  · simp [remaining_polls he, serverLeft, hv, htx, hrx]
  · simp [remaining, serverLeft, he, hv, htx, hrx]

/-- The emulation thread comes nearer to the response that is ready. -/
theorem ready_advances {t : LinkThreads} (hc : t.link.connected = true)
    (hs : t.link.state = .pending) (he : Polls t.emulation ∨ t.emulation = .clearRxReady true)
    (hv : t.server = .loadTxReady) (htx : t.link.txReady = false) (hrx : t.link.rxReady = true) :
    ∃ a t', Silent a ∧ t.step a = some t' ∧ t'.remaining < t.remaining := by
  rw [t.remaining_ready hv htx hrx he]
  rcases he with (he | he | he | he) | he
  · let u := { t with
      link := { t.link with ticks := t.link.ticks + (0xFF : UInt8).toNat }
      emulation := .drain
      count := ConsoleLink.count 0x02 }
    refine ⟨.cycle 0xFF 0x02, u, .inl rfl, by simp only [step, he, u], ?_⟩
    rw [u.remaining_ready hv htx hrx (.inl (.inr (.inl rfl)))]
    have hfast : ConsoleLink.count 0x02 ≤ (0xFF : UInt8).toNat := by decide
    have hcount : u.count ≤ u.link.ticks := Nat.le_trans hfast (Nat.le_add_left _ _)
    simp only [pollsLeft, he, u] at hcount ⊢
    rw [if_pos hcount]
    decide
  · by_cases hticks : t.count ≤ t.link.ticks
    · let u := { t with
        link := { t.link with ticks := t.link.ticks - t.count }
        emulation := .loadRxReady }
      refine ⟨.emulation, u, .inr (.inl rfl), ?_, ?_⟩
      · simp only [step, emulationStep, he, if_pos hticks, check, hs, u]
      · rw [u.remaining_ready hv htx hrx (.inl (.inr (.inr (.inl rfl))))]
        simp [pollsLeft, he, hticks, u]
    · let u := { t with emulation := .idle }
      refine ⟨.emulation, u, .inr (.inl rfl), ?_, ?_⟩
      · simp only [step, emulationStep, he, if_neg hticks, u]
      · rw [u.remaining_ready hv htx hrx (.inl (.inl rfl))]
        simp [pollsLeft, he, hticks, u]
  · let u := { t with emulation := .clearRxReady true }
    refine ⟨.emulation, u, .inr (.inl rfl), ?_, ?_⟩
    · simp only [step, emulationStep, he, hrx, if_true, u]
    · rw [u.remaining_ready hv htx hrx (.inr rfl)]
      simp [pollsLeft, he, u]
  · let u := { t with emulation := .loadRxReady }
    refine ⟨.emulation, u, .inr (.inl rfl), ?_, ?_⟩
    · simp only [step, emulationStep, he, hc, if_true, u]
    · rw [u.remaining_ready hv htx hrx (.inl (.inr (.inr (.inl rfl))))]
      simp [pollsLeft, he, u]
  · refine ⟨.emulation, { t with
        link := { t.link with rxReady := false }
        emulation := .loadRxData true }, .inr (.inl rfl), ?_, ?_⟩
    · simp only [step, emulationStep, he]
    · simp [remaining, pollsLeft, he]

/-- A transfer that has not ended goes on without the connection, or stands at a call of
`wr` or `rd`. -/
theorem silent_advances {t : LinkThreads} {g : Progress} (hc : t.link.connected = true)
    (h : t.Phase g) :
    g = .idle ∨ (∃ a t', Silent a ∧ t.step a = some t' ∧ t'.remaining < t.remaining) ∨
      (∃ data own, t.server = .wr data own ∧ Polls t.emulation) ∨
        g = .sent ∧ ∃ own, t.server = .rd own ∧ Polls t.emulation := by
  cases h with
  | idle => exact .inl rfl
  | @submitting data he hv htx hrx =>
    refine .inr (.inl ?_)
    rcases he with he | ⟨hs, he⟩ | ⟨hs, he, hd⟩
    · refine ⟨.emulation, { t with
          link := { t.link with state := .pending }
          emulation := .storeTxData data }, .inr (.inl rfl), ?_, by simp [remaining, he]⟩
      simp only [step, emulationStep, he, hc, if_true]
    · refine ⟨.emulation, _, .inr (.inl rfl), by simp only [step, emulationStep, he]; rfl, ?_⟩
      simp [remaining, he]
    · refine ⟨.emulation, _, .inr (.inl rfl), by simp only [step, emulationStep, he]; rfl, ?_⟩
      simp [remaining, serverLeft, he, hv]
  | submitted hs he hv htx hd hrx =>
    refine .inr (.inl ?_)
    rcases hv with hv | hv | hv
    · refine ⟨.server, { t with server := .loadRxReady }, .inr (.inr rfl), ?_, ?_⟩
      · simp only [step, serverStep, hv, htx, if_true]
      · exact server_advances _ he rfl (by simp [serverLeft, hv, htx])
    · refine ⟨.server, { t with server := .clearTxReady }, .inr (.inr rfl), ?_, ?_⟩
      · simp [step, serverStep, hv, hrx]
      · exact server_advances _ he rfl (by simp [serverLeft, hv])
    · refine ⟨.server, _, .inr (.inr rfl), by simp only [step, serverStep, hv]; rfl, ?_⟩
      exact server_advances _ he rfl (by simp [serverLeft, hv])
  | taken hs he hv htx hrx =>
    rcases hv with ⟨hv, hd⟩ | ⟨own, hv⟩
    · refine .inr (.inl ⟨.server, _, .inr (.inr rfl), by simp only [step, serverStep, hv]; rfl, ?_⟩)
      exact server_advances _ he rfl (by simp [serverLeft, hv])
    · exact .inr (.inr (.inl ⟨_, own, hv, he⟩))
  | reading hs he hv htx hrx =>
    obtain ⟨own, hv⟩ := hv
    exact .inr (.inr (.inr ⟨rfl, own, hv, he⟩))
  | received hs he hv htx hrx =>
    refine .inr (.inl ?_)
    rcases hv with hv | ⟨hv, hd⟩
    · refine ⟨.server, _, .inr (.inr rfl), by simp only [step, serverStep, hv]; rfl, ?_⟩
      exact server_advances _ he rfl (by simp [serverLeft, hv])
    · refine ⟨.server, _, .inr (.inr rfl), by simp only [step, serverStep, hv]; rfl, ?_⟩
      refine server_advances _ he rfl ?_
      have hlt := pollsLeft_lt { t with
        link := { t.link with rxReady := true }
        server := .loadTxReady }
      simpa [serverLeft, hv, htx] using hlt
  | ready hs he hv htx hrx hd => exact .inr (.inl (ready_advances hc hs he hv htx hrx))
  | cleared hs he hv htx hrx hd =>
    refine .inr (.inl ⟨.emulation, t.finishTransfer t.link.rxData, .inr (.inl rfl), ?_, ?_⟩)
    · simp only [step, emulationStep, he]
    · simp [finishTransfer, remaining, serverLeft, he, hv, htx, hrx]

end LinkThreads

namespace Party

variable {p : Party} {sent received : List UInt8} {g : Progress}

/-- A party whose transfer has not ended goes on, unless it waits for the other's byte. -/
theorem advances (h : p.Exchanged sent received g) (hbusy : g ≠ .idle)
    (hin : g = .sent → p.incoming ≠ []) : ∃ a p' out, p.act a = some (p', out) ∧
      p'.submitted = p.submitted ∧ p'.threads.remaining < p.threads.remaining := by
  rcases LinkThreads.silent_advances h.connected h.phase with
    hidle | ⟨a, t, hsilent, ht, hlt⟩ | ⟨data, own, hv, he⟩ | ⟨hsent, own, hv, he⟩
  · exact absurd hidle hbusy
  · refine ⟨a, p.withThreads t, [], ?_, rfl, hlt⟩
    rcases hsilent with rfl | rfl | rfl <;> simp only [act, ht, Option.map_some]
  · refine ⟨.wr true, p.withThreads { p.threads with server := .rd own }, [data], ?_, rfl, ?_⟩
    · simp only [act, hv, LinkThreads.step, if_true, Option.map_some]
    · refine LinkThreads.server_advances { p.threads with server := .rd own } he rfl ?_
      simp [LinkThreads.serverLeft, hv]
  · obtain ⟨data, rest, hcons⟩ := List.exists_cons_of_ne_nil (hin hsent)
    let t := { p.threads with
      server := .storeRxData data
      answers := if own then p.threads.answers ++ [data] else p.threads.answers }
    refine ⟨.rd (some data), { p with threads := t, incoming := rest }, [], ?_, rfl, ?_⟩
    · simp only [act, hcons, if_true, LinkThreads.step, hv, Option.map_some, t]
    · exact LinkThreads.server_advances t he rfl (by simp [LinkThreads.serverLeft, hv, t])

end Party

namespace Consoles

/-- Both guests have started as many transfers as the other. -/
def Even (c : Consoles) : Prop := c.left.submitted.length = c.right.submitted.length

/-- Each has the other's bytes. -/
def Swapped (c : Consoles) : Prop :=
  c.left.finished = c.right.submitted ∧ c.right.finished = c.left.submitted

def remaining (c : Consoles) : Nat := c.left.threads.remaining + c.right.threads.remaining

/-- A step nearer to the end, without another transfer. -/
def Advances (c : Consoles) : Prop :=
  ∃ c', c.Step c' ∧ c'.left.submitted = c.left.submitted ∧
    c'.right.submitted = c.right.submitted ∧ c'.remaining < c.remaining

section Progress

variable {c : Consoles} {sent received : List UInt8} {g : Progress}

theorem left_advances (h : c.left.Exchanged sent received g) (hbusy : g ≠ .idle)
    (hin : g = .sent → c.left.incoming ≠ []) : c.Advances := by
  obtain ⟨a, p, out, hact, hsub, hlt⟩ := Party.advances h hbusy hin
  refine ⟨⟨p, c.right.deliver out⟩, ⟨.left, a, ?_⟩, hsub, rfl, Nat.add_lt_add_right hlt _⟩
  rw [step, hact]
  rfl

theorem right_advances (h : c.right.Exchanged sent received g) (hbusy : g ≠ .idle)
    (hin : g = .sent → c.right.incoming ≠ []) : c.Advances := by
  obtain ⟨a, p, out, hact, hsub, hlt⟩ := Party.advances h hbusy hin
  refine ⟨⟨c.left.deliver out, p⟩, ⟨.right, a, ?_⟩, rfl, hsub, Nat.add_lt_add_left hlt _⟩
  rw [step, hact]
  rfl

end Progress

/-- Of two parties in an exchange, one can go on. -/
theorem one_advances {c : Consoles} (h : c.Inv) (heven : c.Even) : c.Swapped ∨ c.Advances := by
  obtain ⟨sent, received, sent', received', g, g', hleft, hright, hout, hout'⟩ := h
  have hsub := congrArg List.length hleft.submitted_eq
  have hsub' := congrArg List.length hright.submitted_eq
  have hlength := congrArg List.length hout
  have hlength' := congrArg List.length hout'
  have hturns := hleft.turns
  have hturns' := hright.turns
  rw [List.length_append] at hsub hsub' hlength hlength'
  unfold Even at heven
  -- A party that waits finds a byte, unless the other has yet to send its own.
  cases g with
  | unsent data => exact .inr (left_advances hleft nofun nofun)
  | answered data => exact .inr (left_advances hleft nofun nofun)
  | sent =>
    cases g' with
    | unsent data => exact .inr (right_advances hright nofun nofun)
    | answered data => exact .inr (right_advances hright nofun nofun)
    | sent | idle =>
      refine .inr (left_advances hleft nofun fun _ hnil => ?_)
      simp only [Progress.unsentBytes, Progress.owed, hnil, List.length_nil] at *
      omega
  | idle =>
    cases g' with
    | unsent data => exact .inr (right_advances hright nofun nofun)
    | answered data => exact .inr (right_advances hright nofun nofun)
    | sent =>
      refine .inr (right_advances hright nofun fun _ hnil => ?_)
      simp only [Progress.unsentBytes, Progress.owed, hnil, List.length_nil] at *
      omega
    | idle =>
      simp only [Progress.unsentBytes, Progress.owed, List.length_nil] at *
      have hnil : c.left.incoming = [] := List.eq_nil_of_length_eq_zero (by omega)
      have hnil' : c.right.incoming = [] := List.eq_nil_of_length_eq_zero (by omega)
      refine .inl ⟨?_, ?_⟩
      · rw [hright.submitted_eq, hout', hnil, hleft.received_eq]
        simp [Progress.answeredBytes, Progress.unsentBytes]
      · rw [hleft.submitted_eq, hout, hnil', hright.received_eq]
        simp [Progress.answeredBytes, Progress.unsentBytes]

/-- **No deadlock.** From every state in which both guests have started equally many
transfers, the threads can go on, without another transfer, to the end of all of them. -/
theorem transfers_end {txData rxData txData' rxData' : UInt8} {c : Consoles}
    (h : Relation.ReflTransGen Step (connected txData rxData txData' rxData') c)
    (heven : c.Even) : ∃ c', Relation.ReflTransGen Step c c' ∧
      c'.left.submitted = c.left.submitted ∧ c'.right.submitted = c.right.submitted ∧
        c'.Swapped := by
  have hinv := inv_of_run h
  clear h
  induction hn : c.remaining using Nat.strongRecOn generalizing c with
  | ind n ih =>
    rcases one_advances hinv heven with hswapped | ⟨c', hstep, hl, hr, hlt⟩
    · exact ⟨c, .refl, rfl, rfl, hswapped⟩
    · have heven' : c'.Even := by
        unfold Even
        rw [hl, hr]
        exact heven
      obtain ⟨d, hrun, hl', hr', hswapped⟩ := ih _ (hn ▸ hlt) heven' (step_inv hinv hstep) rfl
      exact ⟨d, .head hstep hrun, hl'.trans hl, hr'.trans hr, hswapped⟩

theorem transfers_end_started : ∃ c c' : Consoles, Relation.ReflTransGen Step c c' ∧
    c.left.submitted = [0x12] ∧ c.right.submitted = [0x34] ∧ c.left.finished = [] ∧
      c'.left.finished = [0x34] ∧ c'.right.finished = [0x12] := by
  have hsteps : ((connected 0 0 0 0).run bothStarted).map
      (fun c => (c.left.submitted, c.right.submitted, c.left.finished)) =
        some ([0x12], [0x34], []) := by decide
  obtain ⟨c, hc, hstate⟩ := Option.map_eq_some_iff.mp hsteps
  obtain ⟨hl, hrest⟩ := Prod.mk.inj hstate
  obtain ⟨hr, hfinished⟩ := Prod.mk.inj hrest
  obtain ⟨c', hrun, hl', hr', hswapped⟩ := transfers_end (reflTransGen_of_run hc)
    (show c.left.submitted.length = c.right.submitted.length by rw [hl, hr]; rfl)
  exact ⟨c, c', hrun, hl, hr, hfinished, hswapped.1.trans (hr'.trans hr),
    hswapped.2.trans (hl'.trans hl)⟩

end Consoles

end GbEmu
