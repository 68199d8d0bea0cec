import Mathlib.Logic.Relation
import Mathlib.Tactic.SplitIfs
import GbEmu.ConsoleLink.Threads
import GbEmu.Lib.Run

/-!
Which response a transfer is finished with. The mailboxes carry no number, so a
response belongs to the latest transfer only if no byte of an earlier one is on its
way when the latest is submitted; and a lost connection leaves the byte that the
receiving mailbox held before.
-/

namespace GbEmu.LinkThreads

/-- After the take of a byte out of `tx` and before the response is ready. -/
def exchanging : ServerPc → Bool
  | .loadTxData | .wr _ _ | .rd _ | .storeRxData _ | .storeRxReady => true
  | .disconnected | .loadTxReady | .loadRxReady | .clearTxReady | .failed => false

/-- The byte is an answer to the transfer, or the simulated one, if there was none. -/
def Fresh (finish : UInt8 × List UInt8) : Prop :=
  finish.1 ∈ finish.2 ∨ (finish.1 = ConsoleLink.simulatedResponse ∧ finish.2 = [])

/-- The steps that keep responses fresh: a transfer is submitted while no exchange is
under way and no response waits, and `handlePending` gives up only when the receiving
mailbox holds the simulated response and nothing waits to be sent. -/
def Safe (t : LinkThreads) : LinkAction → Prop
  | .emulation =>
    match t.emulation with
    | .storeTxReady => exchanging t.server = false ∧ t.link.rxReady = false
    | .checkConnected =>
      t.link.connected = false →
        t.link.rxData = ConsoleLink.simulatedResponse ∧ t.link.txReady = false
    | _ => True
  | _ => True

def Step (t t' : LinkThreads) : Prop := ∃ a, t.step a = some t'

def SafeStep (t t' : LinkThreads) : Prop := ∃ a, t.Safe a ∧ t.step a = some t'

/-! ## The link thread -/

/-- What the link thread does next. -/
inductive ServerMove (t : LinkThreads) : LinkThreads → Prop
  | poll (hs : t.server = .loadTxReady) (h : t.link.txReady = false) : ServerMove t t
  | see (hs : t.server = .loadTxReady) (h : t.link.txReady = true) :
      ServerMove t { t with server := .loadRxReady }
  | full (hs : t.server = .loadRxReady) (h : t.link.rxReady = true) :
      ServerMove t { t with server := .loadTxReady }
  | take (hs : t.server = .loadRxReady) (h : t.link.rxReady = false) :
      ServerMove t { t with server := .clearTxReady }
  | clear (hs : t.server = .clearTxReady) :
      ServerMove t { t with link := { t.link with txReady := false }, server := .loadTxData }
  | load (hs : t.server = .loadTxData) :
      ServerMove t { t with server := .wr t.link.txData t.own }
  | send {data : UInt8} {own : Bool} (hs : t.server = .wr data own) :
      ServerMove t { t with server := .rd own }
  | lose (hs : (∃ data own, t.server = .wr data own) ∨ ∃ own, t.server = .rd own) :
      ServerMove t { t with server := .failed }
  | receive {own : Bool} (hs : t.server = .rd own) (data : UInt8) :
      ServerMove t { t with
        server := .storeRxData data
        answers := if own then t.answers ++ [data] else t.answers }
  | store {data : UInt8} (hs : t.server = .storeRxData data) :
      ServerMove t { t with link := { t.link with rxData := data }, server := .storeRxReady }
  | ready (hs : t.server = .storeRxReady) :
      ServerMove t { t with link := { t.link with rxReady := true }, server := .loadTxReady }
  | disconnect (hs : t.server = .failed) :
      ServerMove t { t with link := { t.link with connected := false }, server := .disconnected }
  | connect (hs : t.server = .disconnected) :
      ServerMove t { t with link := { t.link with connected := true }, server := .loadTxReady }

theorem serverStep_move {t t' : LinkThreads} (h : t.serverStep = some t') : ServerMove t t' := by
  unfold serverStep at h
  cases hs : t.server with
  | disconnected | wr | rd => simp [hs] at h
  | loadTxReady =>
    obtain rfl : _ = t' := by simpa [hs] using h
    cases ht : t.link.txReady with
    | false => simpa [ht, ← hs] using ServerMove.poll hs ht
    | true => simpa [ht] using ServerMove.see hs ht
  | loadRxReady =>
    obtain rfl : _ = t' := by simpa [hs] using h
    cases hr : t.link.rxReady with
    | false => simpa [hr] using ServerMove.take hs hr
    | true => simpa [hr] using ServerMove.full hs hr
  | clearTxReady =>
    obtain rfl : _ = t' := by simpa [hs] using h
    exact .clear hs
  | loadTxData =>
    obtain rfl : _ = t' := by simpa [hs] using h
    exact .load hs
  | storeRxData data =>
    obtain rfl : _ = t' := by simpa [hs] using h
    exact .store hs
  | storeRxReady =>
    obtain rfl : _ = t' := by simpa [hs] using h
    exact .ready hs
  | failed =>
    obtain rfl : _ = t' := by simpa [hs] using h
    exact .disconnect hs

/-- The byte under way in `wr` or `rd` is that of the latest transfer. -/
def carriesOwn : ServerPc → Bool
  | .wr _ own | .rd own => own
  | _ => false

structure ServerInv (t : LinkThreads) : Prop where
  reading : t.server = .clearTxReady ∨ exchanging t.server = true → t.link.rxReady = false
  waiting : t.server = .loadRxReady ∨ t.server = .clearTxReady → t.link.txReady = true
  connected : t.link.connected = false ↔ t.server = .disconnected
  foreign : t.own = false → t.answers = [] ∧ carriesOwn t.server = false

theorem serverMove_inv {t t' : LinkThreads} (ht : t.ServerInv) (h : ServerMove t t') :
    t'.ServerInv := by
  obtain ⟨hr, hw, hc, hf⟩ := ht
  cases h with
  | poll => exact ⟨hr, hw, hc, hf⟩
  | see hs h => exact ⟨by simp [exchanging], fun _ => h, by simp [hc, hs], by simp_all [carriesOwn]⟩
  | full hs h => exact ⟨by simp [exchanging], by simp, by simp [hc, hs], by simp_all [carriesOwn]⟩
  | take hs h =>
    exact ⟨fun _ => h, fun _ => hw (.inl hs), by simp [hc, hs], by simp_all [carriesOwn]⟩
  | clear hs => exact ⟨fun _ => hr (.inl hs), by simp, by simp [hc, hs], by simp_all [carriesOwn]⟩
  | load hs =>
    have hrx := hr (.inr (by simp [hs, exchanging]))
    exact ⟨fun _ => hrx, by simp, by simp [hc, hs], by simp_all [carriesOwn]⟩
  | send hs =>
    have hrx := hr (.inr (by simp [hs, exchanging]))
    exact ⟨fun _ => hrx, by simp, by simp [hc, hs], by simp_all [carriesOwn]⟩
  | lose hs =>
    have hne : t.server ≠ .disconnected := by
      rcases hs with ⟨_, _, hs⟩ | ⟨_, hs⟩ <;> simp [hs]
    exact ⟨by simp [exchanging], by simp, by simp [hc, hne], fun h => ⟨(hf h).1, rfl⟩⟩
  | receive hs data =>
    have hrx := hr (.inr (by simp [hs, exchanging]))
    refine ⟨fun _ => hrx, by simp, by simp [hc, hs], fun h => ⟨?_, rfl⟩⟩
    obtain ⟨hnone, hown⟩ := hf h
    simp_all [carriesOwn]
  | store hs =>
    have hrx := hr (.inr (by simp [hs, exchanging]))
    exact ⟨fun _ => hrx, by simp, by simp [hc, hs], by simp_all [carriesOwn]⟩
  | ready hs => exact ⟨by simp [exchanging], by simp, by simp [hc, hs], by simp_all [carriesOwn]⟩
  | disconnect hs => exact ⟨by simp [exchanging], by simp, by simp, by simp_all [carriesOwn]⟩
  | connect hs => exact ⟨by simp [exchanging], by simp, by simp, by simp_all [carriesOwn]⟩

/-! ## A transfer that is under way -/

/-- What is received in this state is an answer to the latest transfer. -/
def Answering (t : LinkThreads) : Prop :=
  match t.server with
  | .wr _ own | .rd own => own = true
  | .storeRxData data => data ∈ t.answers
  | .storeRxReady => t.link.rxData ∈ t.answers
  | _ => True

/-- The latest transfer has been submitted and is not finished. -/
structure Pending (t : LinkThreads) : Prop where
  own : t.own = true
  answering : t.Answering
  ready : t.link.rxReady = true → t.link.rxData ∈ t.answers
  /-- Its byte is taken once. -/
  spent : exchanging t.server = true ∨ t.link.rxReady = true ∨ t.answers ≠ [] →
    t.link.txReady = false
  live : t.answers ≠ [] →
    (∃ data, t.server = .storeRxData data) ∨ t.server = .storeRxReady ∨ t.server = .loadTxReady

/-- What `Pending` is about. -/
def view (t : LinkThreads) : Bool × ServerPc × List UInt8 × Bool × Bool × UInt8 :=
  (t.own, t.server, t.answers, t.link.txReady, t.link.rxReady, t.link.rxData)

theorem Pending.of_view {t t' : LinkThreads} (h : t.Pending) (hv : t'.view = t.view) :
    t'.Pending := by
  simp only [view, Prod.mk.injEq] at hv
  obtain ⟨hown, hs, ha, htx, hrx, hd⟩ := hv
  obtain ⟨h1, h2, h3, h4, h5⟩ := h
  refine ⟨by rw [hown, h1], ?_, by rw [hrx, hd, ha]; exact h3, by rw [hs, hrx, ha, htx]; exact h4,
    by rw [ha, hs]; exact h5⟩
  unfold Answering at h2 ⊢
  rwa [hs, ha, hd]

theorem serverMove_pending {t t' : LinkThreads} (hi : t.ServerInv) (ht : t.Pending)
    (h : ServerMove t t') : t'.Pending := by
  obtain ⟨hown, ha, hr, hsp, hl⟩ := ht
  -- A byte is taken only before there is an answer.
  have hnone : t.link.txReady = true → t.answers = [] := by
    intro htx
    refine Classical.byContradiction fun hne => ?_
    rw [hsp (.inr (.inr hne))] at htx
    cases htx
  cases h with
  | poll => exact ⟨hown, ha, hr, hsp, hl⟩
  | see hs h => exact ⟨hown, trivial, hr, by simp_all [exchanging], by simp [hnone h]⟩
  | full hs h => exact ⟨hown, trivial, hr, by simp_all [exchanging], by simp_all⟩
  | take hs h =>
    have hans := hnone (hi.waiting (.inl hs))
    exact ⟨hown, trivial, hr, by simp_all [exchanging], by simp [hans]⟩
  | clear hs => exact ⟨hown, trivial, hr, by simp, by simp [hnone (hi.waiting (.inr hs))]⟩
  | load hs => exact ⟨hown, hown, hr, by simp_all [exchanging], by simp_all⟩
  | send hs => exact ⟨hown, by simp_all [Answering], hr, by simp_all [exchanging], by simp_all⟩
  | lose hs =>
    have hans : t.answers = [] := by
      refine Classical.byContradiction fun hne => ?_
      rcases hs with ⟨_, _, hs⟩ | ⟨_, hs⟩ <;> simp [hs] at hl <;> exact hne hl
    have htx : t.link.txReady = false := by
      refine hsp (.inl ?_)
      rcases hs with ⟨_, _, hs⟩ | ⟨_, hs⟩ <;> simp [hs, exchanging]
    exact ⟨hown, trivial, hr, fun _ => htx, by simp [hans]⟩
  | @receive own hs data =>
    have hself : own = true := by simpa [Answering, hs] using ha
    have hrx := hi.reading (.inr (by simp [hs, exchanging]))
    subst hself
    refine ⟨hown, by simp [Answering], by simp [hrx], fun _ => ?_, fun _ => .inl ⟨data, rfl⟩⟩
    exact hsp (.inl (by simp [hs, exchanging]))
  | @store data hs =>
    have hmem : data ∈ t.answers := by simpa [Answering, hs] using ha
    refine ⟨hown, hmem, fun _ => hmem, fun _ => ?_, fun _ => .inr (.inl rfl)⟩
    exact hsp (.inl (by simp [hs, exchanging]))
  | ready hs =>
    have hmem : t.link.rxData ∈ t.answers := by simpa [Answering, hs] using ha
    refine ⟨hown, trivial, fun _ => hmem, fun _ => ?_, fun _ => .inr (.inr rfl)⟩
    exact hsp (.inl (by simp [hs, exchanging]))
  | disconnect hs => exact ⟨hown, trivial, hr, by simp_all [exchanging], by simp_all⟩
  | connect hs => exact ⟨hown, trivial, hr, by simp_all [exchanging], by simp_all⟩

/-- `handlePending` has given up: there is no answer, and none can come. -/
structure GivenUp (t : LinkThreads) : Prop where
  rxData : t.link.rxData = ConsoleLink.simulatedResponse
  answers : t.answers = []
  txReady : t.link.txReady = false
  quiet : t.server = .loadTxReady ∨ t.server = .failed ∨ t.server = .disconnected

theorem serverMove_givenUp {t t' : LinkThreads} (ht : t.GivenUp) (h : ServerMove t t') :
    t'.GivenUp := by
  obtain ⟨hd, ha, htx, hq⟩ := ht
  cases h with
  | poll => exact ⟨hd, ha, htx, hq⟩
  | see hs h => simp [htx] at h
  | disconnect => exact ⟨hd, ha, htx, .inr (.inr rfl)⟩
  | connect => exact ⟨hd, ha, htx, .inl rfl⟩
  | lose hs => rcases hs with ⟨_, _, hs⟩ | ⟨_, hs⟩ <;> simp [hs] at hq
  | full hs | take hs | clear hs | load hs | send hs | receive hs | store hs | ready hs =>
    simp [hs] at hq

/-- An answer to the byte that is being submitted still is on its way, or waits. -/
def Premature (t : LinkThreads) : Prop :=
  t.answers ≠ [] →
    (∃ data, t.server = .storeRxData data) ∨ t.server = .storeRxReady ∨ t.link.rxReady = true

theorem serverMove_premature {t t' : LinkThreads} (hi : t.ServerInv) (ht : t.Premature)
    (h : ServerMove t t') : t'.Premature := by
  intro hne
  cases h with
  | poll => exact ht hne
  | receive hs data => exact .inl ⟨data, rfl⟩
  | store => exact .inr (.inl rfl)
  | ready => exact .inr (.inr rfl)
  | lose hs =>
    have hrx : t.link.rxReady = false := by
      refine hi.reading (.inr ?_)
      rcases hs with ⟨_, _, hs⟩ | ⟨_, hs⟩ <;> simp [hs, exchanging]
    have hsoon := ht hne
    rcases hs with ⟨_, _, hs⟩ | ⟨_, hs⟩ <;> simp [hs, hrx] at hsoon
  | see hs | full hs | take hs | clear hs | load hs | send hs | disconnect hs | connect hs =>
    have hsoon := ht hne
    simp only [hs, reduceCtorEq, exists_const, false_or] at hsoon
    exact .inr (.inr hsoon)

/-! ## The emulation thread -/

/-- What the place of the emulation thread says about the latest transfer. -/
def EmulationInv (t : LinkThreads) : Prop :=
  match t.emulation with
  | .idle | .drain => t.link.state = .pending → t.Pending
  | .loadConnected _ => t.own = false
  | .storeTxData _ => t.link.state = .pending ∧ t.own = false
  | .storeTxReady => t.link.state = .pending ∧ t.own = true ∧ t.Premature
  | .loadRxReady | .checkConnected => t.link.state = .pending ∧ t.Pending
  | .clearRxReady true | .loadRxData true =>
    t.link.state = .pending ∧ t.Pending ∧ t.link.rxData ∈ t.answers
  | .clearRxReady false | .loadRxData false => t.link.state = .pending ∧ t.GivenUp

structure Inv (t : LinkThreads) : Prop where
  server : t.ServerInv
  emulation : t.EmulationInv
  /-- Nothing was submitted for a transfer without a connection. -/
  simulated : t.link.state = .simResponse → t.own = false
  finished : ∀ finish ∈ t.finished, Fresh finish

/-- What the link thread leaves to the emulation thread. -/
theorem serverMove_frame {t t' : LinkThreads} (h : ServerMove t t') :
    t'.emulation = t.emulation ∧ t'.link.state = t.link.state ∧ t'.own = t.own ∧
      t'.finished = t.finished := by
  cases h <;> exact ⟨rfl, rfl, rfl, rfl⟩

theorem serverMove_answered {t t' : LinkThreads} (ht : t.Pending)
    (hmem : t.link.rxData ∈ t.answers) (h : ServerMove t t') : t'.link.rxData ∈ t'.answers := by
  cases h with
  | @receive own hs data =>
    cases own with
    | false => exact hmem
    | true => exact List.mem_append_left _ hmem
  | store hs => simpa [Answering, hs] using ht.answering
  | poll | see | full | take | clear | load | send | lose | ready | disconnect | connect =>
    exact hmem

theorem serverMove_emulationInv {t t' : LinkThreads} (ht : t.Inv) (h : ServerMove t t') :
    t'.EmulationInv := by
  obtain ⟨hs, he, -, -⟩ := ht
  obtain ⟨hpc, hstate, hown, -⟩ := serverMove_frame h
  unfold EmulationInv at he ⊢
  rw [hpc]
  cases hc : t.emulation with
  | idle | drain =>
    simp only [hc] at he ⊢
    intro hp
    exact serverMove_pending hs (he (hstate ▸ hp)) h
  | loadConnected data =>
    simp only [hc] at he ⊢
    exact hown.trans he
  | storeTxData data =>
    simp only [hc] at he ⊢
    exact ⟨hstate.trans he.1, hown.trans he.2⟩
  | storeTxReady =>
    simp only [hc] at he ⊢
    exact ⟨hstate.trans he.1, hown.trans he.2.1, serverMove_premature hs he.2.2 h⟩
  | loadRxReady | checkConnected =>
    simp only [hc] at he ⊢
    exact ⟨hstate.trans he.1, serverMove_pending hs he.2 h⟩
  | clearRxReady answered | loadRxData answered =>
    cases answered with
    | false =>
      simp only [hc] at he ⊢
      exact ⟨hstate.trans he.1, serverMove_givenUp he.2 h⟩
    | true =>
      simp only [hc] at he ⊢
      obtain ⟨hp, hpend, hmem⟩ := he
      exact ⟨hstate.trans hp, serverMove_pending hs hpend h, serverMove_answered hpend hmem h⟩

theorem serverMove_keeps {t t' : LinkThreads} (ht : t.Inv) (h : ServerMove t t') : t'.Inv := by
  obtain ⟨-, hstate, hown, hfin⟩ := serverMove_frame h
  refine ⟨serverMove_inv ht.server h, serverMove_emulationInv ht h, ?_, ?_⟩
  · rw [hstate, hown]
    exact ht.simulated
  · rw [hfin]
    exact ht.finished

/-! ## The steps of the emulation thread -/

theorem finishState_done (state : LinkState) :
    ConsoleLink.finishState state ≠ .pending ∧ ConsoleLink.finishState state ≠ .simResponse := by
  cases state <;> decide

theorem finishTransfer_inv {t : LinkThreads} {data : UInt8} (ht : t.Inv)
    (hfresh : Fresh (data, t.answers)) : (t.finishTransfer data).Inv := by
  obtain ⟨hpending, hsim⟩ := finishState_done t.link.state
  refine ⟨⟨ht.server.reading, ht.server.waiting, ht.server.connected, ht.server.foreign⟩,
    fun hp => absurd hp hpending, fun hp => absurd hp hsim, ?_⟩
  intro finish hmem
  rcases List.mem_append.mp hmem with hmem | hmem
  · exact ht.finished finish hmem
  · rw [List.mem_singleton.mp hmem]
    exact hfresh

theorem check_inv {t : LinkThreads} (ht : t.Inv) (hc : t.emulation = .drain) : t.check.Inv := by
  have he := ht.emulation
  simp only [EmulationInv, hc] at he
  cases hs : t.link.state with
  | idle | disconnected =>
    simp only [check, hs]
    exact ht
  | simResponse =>
    simp only [check, hs]
    obtain ⟨hnone, -⟩ := ht.server.foreign (ht.simulated hs)
    exact finishTransfer_inv ht (.inr ⟨rfl, hnone⟩)
  | pending =>
    simp only [check, hs]
    exact ⟨⟨ht.server.reading, ht.server.waiting, ht.server.connected, ht.server.foreign⟩,
      ⟨hs, (he hs).of_view rfl⟩, ht.simulated, ht.finished⟩

/-- A submission while nothing is under way. -/
theorem pending_of_submitted {t : LinkThreads} (hown : t.own = true) (hp : t.Premature)
    (hex : exchanging t.server = false) (hrx : t.link.rxReady = false) :
    { t with link := { t.link with txReady := true }, emulation := .idle }.Pending := by
  have hnone : t.answers = [] := by
    refine Classical.byContradiction fun hne => ?_
    rcases hp hne with ⟨_, hs⟩ | hs | hr
    · simp [hs, exchanging] at hex
    · simp [hs, exchanging] at hex
    · simp [hrx] at hr
  refine ⟨hown, ?_, by simp [hrx], by simp [hex, hrx, hnone], by simp [hnone]⟩
  unfold Answering
  cases hs : t.server <;> simp_all [exchanging]

/-- A give-up after which no response can follow. -/
theorem givenUp_of_lost {t : LinkThreads} (hs : t.ServerInv) (hp : t.Pending)
    (hoff : t.link.connected = false)
    (hsafe : t.link.rxData = ConsoleLink.simulatedResponse ∧ t.link.txReady = false) :
    t.GivenUp := by
  have hserver := hs.connected.mp hoff
  have hnone : t.answers = [] := by
    refine Classical.byContradiction fun hne => ?_
    simpa [hserver] using hp.live hne
  exact ⟨hsafe.1, hnone, hsafe.2, .inr (.inr hserver)⟩

/-- The response is taken: `rx.ready` is clear again, and `rx.data` stays. -/
theorem Pending.cleared {t : LinkThreads} (hp : t.Pending) (pc : EmulationPc) :
    { t with link := { t.link with rxReady := false }, emulation := pc }.Pending := by
  refine ⟨hp.own, hp.answering, by simp, fun hbusy => hp.spent ?_, hp.live⟩
  rcases hbusy with hex | hrx | hne
  · exact .inl hex
  · simp at hrx
  · exact .inr (.inr hne)

theorem emulationStep_inv {t t' : LinkThreads} (ht : t.Inv) (hsafe : t.Safe .emulation)
    (h : t.emulationStep = some t') : t'.Inv := by
  obtain ⟨⟨hr, hw, hconn, hf⟩, he, hsim, hfin⟩ := ht
  unfold emulationStep at h
  unfold EmulationInv at he
  unfold Safe at hsafe
  cases hc : t.emulation with
  | idle => simp [hc] at h
  | drain =>
    simp only [hc] at h he
    split_ifs at h with hticks
    · obtain rfl : _ = t' := by simpa using h
      refine check_inv ⟨⟨hr, hw, hconn, hf⟩, ?_, hsim, hfin⟩ rfl
      simp only [EmulationInv]
      exact fun hp => (he hp).of_view rfl
    · obtain rfl : _ = t' := by simpa using h
      exact ⟨⟨hr, hw, hconn, hf⟩, fun hp => (he hp).of_view rfl, hsim, hfin⟩
  | loadConnected data =>
    simp only [hc] at h he
    split_ifs at h with hon
    · obtain rfl : _ = t' := by simpa using h
      exact ⟨⟨hr, hw, hconn, hf⟩, ⟨rfl, he⟩, by simp, hfin⟩
    · obtain rfl : _ = t' := by simpa using h
      exact ⟨⟨hr, hw, hconn, hf⟩, by simp [EmulationInv], fun _ => he, hfin⟩
  | storeTxData data =>
    simp only [hc] at h he
    obtain rfl : _ = t' := by simpa using h
    have hnone := (hf he.2).1
    exact ⟨⟨hr, hw, hconn, by simp⟩, ⟨he.1, rfl, by simp [Premature, hnone]⟩, by simp [he.1], hfin⟩
  | storeTxReady =>
    simp only [hc] at h he hsafe
    obtain rfl : _ = t' := by simpa using h
    exact ⟨⟨hr, fun _ => rfl, hconn, hf⟩,
      fun _ => pending_of_submitted he.2.1 he.2.2 hsafe.1 hsafe.2, hsim, hfin⟩
  | loadRxReady =>
    simp only [hc] at h he
    obtain ⟨hstate, hp⟩ := he
    cases hready : t.link.rxReady with
    | false =>
      obtain rfl : _ = t' := by simpa [hready] using h
      exact ⟨⟨hr, hw, hconn, hf⟩, ⟨hstate, hp.of_view rfl⟩, hsim, hfin⟩
    | true =>
      obtain rfl : _ = t' := by simpa [hready] using h
      exact ⟨⟨hr, hw, hconn, hf⟩, ⟨hstate, hp.of_view rfl, hp.ready hready⟩, hsim, hfin⟩
  | checkConnected =>
    simp only [hc] at h he hsafe
    obtain ⟨hstate, hp⟩ := he
    cases hon : t.link.connected with
    | true =>
      obtain rfl : _ = t' := by simpa [hon] using h
      exact ⟨⟨hr, hw, by simpa [hon] using hconn, hf⟩, ⟨hstate, hp.of_view rfl⟩, hsim, hfin⟩
    | false =>
      obtain rfl : _ = t' := by simpa [hon] using h
      have hg := givenUp_of_lost ⟨hr, hw, hconn, hf⟩ hp hon (hsafe hon)
      exact ⟨⟨hr, hw, hconn, hf⟩, ⟨hstate, hg.rxData, hg.answers, hg.txReady, hg.quiet⟩, hsim,
        hfin⟩
  | clearRxReady answered =>
    simp only [hc] at h he
    obtain rfl : _ = t' := by simpa using h
    refine ⟨⟨fun _ => rfl, hw, hconn, hf⟩, ?_, hsim, hfin⟩
    cases answered with
    | false =>
      obtain ⟨hstate, hg⟩ := he
      exact ⟨hstate, hg.rxData, hg.answers, hg.txReady, hg.quiet⟩
    | true =>
      obtain ⟨hstate, hp, hmem⟩ := he
      exact ⟨hstate, hp.cleared _, hmem⟩
  | loadRxData answered =>
    simp only [hc] at h he
    obtain rfl : _ = t' := by simpa using h
    have ht : t.Inv := by
      refine ⟨⟨hr, hw, hconn, hf⟩, ?_, hsim, hfin⟩
      unfold EmulationInv
      rw [hc]
      exact he
    cases answered with
    | false => exact finishTransfer_inv ht (.inr ⟨he.2.rxData, he.2.answers⟩)
    | true => exact finishTransfer_inv ht (.inl he.2.2)

/-! ## Runs -/

theorem disown_eq (pc : ServerPc) :
    exchanging (disown pc) = exchanging pc ∧ carriesOwn (disown pc) = false ∧
      (disown pc = .clearTxReady ↔ pc = .clearTxReady) ∧
      (disown pc = .loadRxReady ↔ pc = .loadRxReady) ∧
      (disown pc = .disconnected ↔ pc = .disconnected) := by
  cases pc <;> simp [disown, exchanging, carriesOwn]

theorem safeStep_inv {t t' : LinkThreads} (ht : t.Inv) (h : t.SafeStep t') : t'.Inv := by
  obtain ⟨a, hsafe, hstep⟩ := h
  cases a with
  | transfer data =>
    obtain ⟨hex, hown, hclear, hload, hdis⟩ := disown_eq t.server
    cases hc : t.emulation <;> simp only [step, hc, reduceCtorEq] at hstep
    obtain rfl : _ = t' := by simpa using hstep
    refine ⟨⟨?_, ?_, ?_, fun _ => ⟨rfl, hown⟩⟩, rfl, fun _ => rfl, ht.finished⟩
    · simpa only [hex, hclear] using ht.server.reading
    · simpa only [hload, hclear] using ht.server.waiting
    · simpa only [hdis] using ht.server.connected
  | cycle ticks control =>
    have he := ht.emulation
    cases hc : t.emulation <;> simp only [step, hc, reduceCtorEq] at hstep
    obtain rfl : _ = t' := by simpa using hstep
    simp only [EmulationInv, hc] at he
    exact ⟨⟨ht.server.reading, ht.server.waiting, ht.server.connected, ht.server.foreign⟩,
      fun hp => (he hp).of_view rfl, ht.simulated, ht.finished⟩
  | emulation => exact emulationStep_inv ht hsafe (by simpa [step] using hstep)
  | server => exact serverMove_keeps ht (serverStep_move (by simpa [step] using hstep))
  | connect =>
    cases hs : t.server <;> simp only [step, hs, reduceCtorEq] at hstep
    obtain rfl : _ = t' := by simpa using hstep
    exact serverMove_keeps ht (.connect hs)
  | wr ok =>
    cases hs : t.server <;> simp only [step, hs, reduceCtorEq] at hstep
    obtain rfl : _ = t' := by simpa using hstep
    cases ok with
    | true => exact serverMove_keeps ht (.send hs)
    | false => exact serverMove_keeps ht (.lose (.inl ⟨_, _, hs⟩))
  | rd response =>
    cases hs : t.server <;> simp only [step, hs, reduceCtorEq] at hstep
    cases response with
    | none =>
      obtain rfl : _ = t' := by simpa using hstep
      exact serverMove_keeps ht (.lose (.inr ⟨_, hs⟩))
    | some data =>
      obtain rfl : _ = t' := by simpa using hstep
      exact serverMove_keeps ht (.receive hs data)

theorem constructed_inv (txData rxData : UInt8) : (constructed txData rxData).Inv :=
  ⟨⟨by simp [constructed], by simp [constructed], by simp [constructed],
    by simp [constructed, carriesOwn]⟩, by simp [EmulationInv, constructed],
    by simp [constructed], by simp [constructed]⟩

/-- **Responses are fresh** in every run of safe steps: every byte that a transfer is
finished with is an answer to it, or the simulated response to a transfer without one. -/
theorem responses_fresh {txData rxData : UInt8} {t : LinkThreads}
    (h : Relation.ReflTransGen SafeStep (constructed txData rxData) t) :
    ∀ finish ∈ t.finished, Fresh finish := by
  have hinv : t.Inv := by
    induction h with
    | refl => exact constructed_inv txData rxData
    | tail _ hstep ih => exact safeStep_inv ih hstep
  exact hinv.finished

instance (t : LinkThreads) (a : LinkAction) : Decidable (t.Safe a) := by
  unfold Safe
  split
  · split <;> infer_instance
  · infer_instance

instance (finish : UInt8 × List UInt8) : Decidable (Fresh finish) := by
  unfold Fresh
  infer_instance

/-- A connection and a transfer whose byte is sent. -/
def firstSent : List LinkAction :=
  [.connect, .transfer 0x01, .emulation, .emulation, .emulation,
    .server, .server, .server, .server, .wr true]

/-- The response to it, and the call of `cycle` that finishes it. -/
def firstAnswered : List LinkAction :=
  [.rd (some 0x42), .server, .server,
    .cycle 0xFF 0x02, .emulation, .emulation, .emulation, .emulation, .emulation]

/-- A second transfer, whose byte cannot be sent. -/
def secondLost : List LinkAction :=
  [.transfer 0x02, .emulation, .emulation, .emulation, .server, .server, .server, .server,
    .wr false, .server,
    .cycle 0xFF 0x02, .emulation, .emulation, .emulation, .emulation, .emulation]

theorem responses_fresh_first : ∃ t, t.finished = [(0x42, [0x42])] ∧
    Relation.ReflTransGen SafeStep (constructed 0 0) t ∧ ∀ finish ∈ t.finished, Fresh finish := by
  have hsteps : ((firstSent ++ firstAnswered).foldlM
      (fun t a => if Safe t a then t.step a else none) (constructed 0 0)).map finished =
        some [(0x42, [0x42])] := by decide
  obtain ⟨t, ht, hfinished⟩ := Option.map_eq_some_iff.mp hsteps
  have hrun : Relation.ReflTransGen SafeStep (constructed 0 0) t := by
    refine Run.reflTransGen_of_foldlM (fun s a s' h => ?_) ht
    split_ifs at h with hsafe
    exact ⟨a, hsafe, h⟩
  exact ⟨t, hfinished, hrun, responses_fresh hrun⟩

/-- The second transfer is finished with the response to the first. -/
theorem response_stale : ¬ ∀ (txData rxData : UInt8) (t : LinkThreads),
    Relation.ReflTransGen Step (constructed txData rxData) t →
      ∀ finish ∈ t.finished, Fresh finish := by
  intro hall
  have hsteps : ((firstSent ++ firstAnswered ++ secondLost).foldlM step (constructed 0 0)).map
      finished = some [(0x42, [0x42]), (0x42, [])] := by decide
  obtain ⟨t, ht, hfinished⟩ := Option.map_eq_some_iff.mp hsteps
  have hrun : Relation.ReflTransGen Step (constructed 0 0) t :=
    Run.reflTransGen_of_foldlM (fun _ a _ h => ⟨a, h⟩) ht
  have hfresh := hall 0 0 t hrun (0x42, []) (by simp [hfinished])
  exact absurd hfresh (by decide)

end GbEmu.LinkThreads
