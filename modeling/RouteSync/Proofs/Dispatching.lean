import Mathlib.Data.List.Nodup
import RouteSync.EventQueue

/-!
# The dispatcher and its publishers

Publishers and the dispatcher take turns in any order.  The dispatcher asks the queue first; it looks for a
shutdown only when nothing waits, and it has to ask the queue again before it waits.  Between the two
questions a publisher may still get an event in, so a shutdown first closes the queue and then empties it.

`Dispatcher.run` plays an interleaving.  The main result, `faithful_of_run`, says that what the queue accepts
is what every subscriber receives, whatever the interleaving and the ending.  `Pipeline.finish` is what the
dispatcher does when it is left alone after its signal (`turns_finish`).
-/

namespace RouteSync

/-! ### Queue and subscribers -/

namespace EventQueue

/-- The counter for an event offered now. -/
def counter (q : EventQueue) (e : ChangeEvent) : Counter :=
  if q.hasRoom then .published e.group e.action else .dropped

theorem hasRoom_iff {q : EventQueue} :
    q.hasRoom = true ↔ q.isOpen = true ∧ q.waiting.length < q.capacity := by
  simp [hasRoom]

theorem counter_eq_dropped_iff {q : EventQueue} {e : ChangeEvent} :
    q.counter e = .dropped ↔ q.hasRoom = false := by
  cases h : q.hasRoom <;> simp [counter, h]

end EventQueue

/-- The events as the subscribers receive them: one after the other, and each in the order of
subscription. -/
def handedOut (subscribers : Nat) (l : List ChangeEvent) : List (Nat × ChangeEvent) :=
  l.flatMap fun e => (List.range subscribers).map fun i => (i, e)

/-- The events of one subscriber. -/
def heard (i : Nat) (l : List (Nat × ChangeEvent)) : List ChangeEvent :=
  (l.filter fun d => d.1 = i).map (·.2)

section HandedOut

variable {n i : Nat} {l l' : List ChangeEvent}

@[simp] theorem handedOut_nil : handedOut n [] = [] := rfl

theorem handedOut_append : handedOut n (l ++ l') = handedOut n l ++ handedOut n l' :=
  List.flatMap_append

theorem handedOut_cons (e : ChangeEvent) :
    handedOut n (e :: l) = ((List.range n).map fun i => (i, e)) ++ handedOut n l :=
  List.flatMap_cons

theorem heard_append (l l' : List (Nat × ChangeEvent)) : heard i (l ++ l') = heard i l ++ heard i l' := by
  simp only [heard, List.filter_append, List.map_append]

/-- Every subscriber receives the events that are handed out, each once. -/
theorem heard_handedOut (hi : i < n) : heard i (handedOut n l) = l := by
  have hrange : (List.range n).filter (fun j => j = i) = [i] := by
    rw [List.filter_eq, List.count_eq_one_of_mem List.nodup_range (List.mem_range.mpr hi)]
    rfl
  have hone : ∀ e : ChangeEvent, heard i ((List.range n).map fun j => (j, e)) = [e] := by
    intro e
    unfold heard
    rw [List.filter_map, List.map_map]
    show ((List.range n).filter fun j => j = i).map (fun _ => e) = [e]
    rw [hrange]
    rfl
  induction l with
  | nil => rfl
  | cons e l ih =>
    rw [handedOut_cons, heard_append, hone, ih]
    rfl

end HandedOut

namespace Pipeline

variable {p : Pipeline} {e : ChangeEvent} {n : Nat}

/-- What one subscriber has received. -/
def received (p : Pipeline) (i : Nat) : List ChangeEvent := heard i p.delivered

/-- What has been delivered, and then what waits. -/
def underway (p : Pipeline) : List (Nat × ChangeEvent) :=
  p.delivered ++ handedOut p.subscribers p.queue.waiting

/-- The events that the queue takes in when an event is published. -/
def intake (p : Pipeline) (e : ChangeEvent) : List ChangeEvent := if p.queue.hasRoom then [e] else []

@[simp] theorem subscribers_publish : (p.publish e).subscribers = p.subscribers := rfl

@[simp] theorem delivered_publish : (p.publish e).delivered = p.delivered := rfl

theorem queue_publish : (p.publish e).queue = { p.queue with waiting := p.queue.waiting ++ p.intake e } := by
  cases h : p.queue.hasRoom <;> simp [publish, EventQueue.offer, EventQueue.push, intake, h]

theorem metrics_publish : (p.publish e).metrics = p.metrics.add (p.queue.counter e) 1 := by
  cases h : p.queue.hasRoom <;> simp [publish, EventQueue.offer, EventQueue.counter, h]

theorem underway_publish : (p.publish e).underway = p.underway ++ handedOut p.subscribers (p.intake e) := by
  simp only [underway, queue_publish, delivered_publish, subscribers_publish, handedOut_append,
    List.append_assoc]

theorem receive_of_waiting {l : List ChangeEvent} (h : p.queue.waiting = e :: l) :
    p.receive = { p with
      queue := { p.queue with waiting := l }
      delivered := p.delivered ++ handedOut p.subscribers [e] } := by
  unfold receive
  rw [h]
  simp [dispatch, handedOut]

theorem underway_receive : p.receive.underway = p.underway := by
  cases h : p.queue.waiting with
  | nil => simp only [receive, h]
  | cons e l =>
    rw [receive_of_waiting h]
    simp only [underway, h, List.append_assoc]
    rw [← handedOut_append]
    rfl

/-- Emptying the queue delivers what waits. -/
theorem drain_eq : p.drain = { p with queue := { p.queue with waiting := [] }, delivered := p.underway } := by
  unfold drain
  generalize hl : p.queue.waiting = l
  induction l generalizing p with
  | nil =>
    obtain ⟨⟨capacity, waiting, isOpen⟩, subscribers, delivered, metrics⟩ := p
    cases hl
    simp [underway]
  | cons e l ih =>
    have hnext : p.receive.queue.waiting = l := by rw [receive_of_waiting hl]
    rw [List.foldl_cons, ih hnext, underway_receive, receive_of_waiting hl]

theorem finish_publishersGone : p.finish .publishersGone =
    { p with queue := { p.queue with waiting := [] }, delivered := p.underway } := drain_eq

theorem finish_shutdown : p.finish .shutdown =
    { p with queue := { p.queue with waiting := [], isOpen := false }, delivered := p.underway } := by
  simp only [finish, drain_eq, EventQueue.close, underway, handedOut_nil, List.append_nil]

/-- Taking an event out beforehand makes no difference to the end. -/
theorem finish_receive {s : PipelineEnd} (hs : s = .publishersGone ∨ s = .shutdown) :
    p.receive.finish s = p.finish s := by
  cases h : p.queue.waiting with
  | nil => simp only [receive, h]
  | cons e l =>
    have hunder := underway_receive (p := p)
    rcases hs with rfl | rfl
    · rw [finish_publishersGone, finish_publishersGone, hunder, receive_of_waiting h]
    · rw [finish_shutdown, finish_shutdown, hunder, receive_of_waiting h]

end Pipeline

/-! ### Turns -/

/-- What brings a dispatcher to its end. -/
inductive EndSignal
  /-- A shutdown is signalled. -/
  | shutdown
  /-- Whoever could signal a shutdown is gone. -/
  | abandoned
  /-- All publishers are gone. -/
  | publishersGone
  deriving DecidableEq, Repr

/-- The ending that a signal leads to. -/
def EndSignal.ending : EndSignal → PipelineEnd
  | .shutdown => .shutdown
  | .abandoned => .shutdown
  | .publishersGone => .publishersGone

/-- Where a dispatcher stands. -/
inductive DispatchPhase
  /-- It asks the queue for an event. -/
  | asking
  /-- Nothing waited, and it looks for a shutdown. -/
  | looking
  /-- It has closed the queue and empties it. -/
  | emptying
  /-- It has returned. -/
  | returned
  deriving DecidableEq, Repr

/-- A dispatcher at work. -/
structure Dispatcher where
  pipeline : Pipeline
  phase : DispatchPhase := .asking
  signal : Option EndSignal := none

/-- What publishers, the one who ends the dispatcher, and the dispatcher itself do. -/
inductive DispatchMove
  | publish (e : ChangeEvent)
  | signal (s : EndSignal)
  | turn

namespace Dispatcher

def start (capacity subscribers : Nat) : Dispatcher := ⟨.create capacity subscribers, .asking, none⟩

/-- Whether the dispatcher, when it looks, is told to shut down. -/
def toldToStop (d : Dispatcher) : Bool := d.signal.any fun s => s.ending = .shutdown

/-- The dispatcher's own next step. -/
def turn (d : Dispatcher) : Dispatcher :=
  match d.phase with
  | .asking =>
    if d.pipeline.queue.waiting ≠ [] then { d with pipeline := d.pipeline.receive }
    else if d.signal = some .publishersGone then { d with phase := .returned }
    else { d with phase := .looking }
  | .looking =>
    if d.toldToStop then
      { d with pipeline := { d.pipeline with queue := d.pipeline.queue.close }, phase := .emptying }
    else { d with phase := .asking }
  | .emptying =>
    if d.pipeline.queue.waiting ≠ [] then { d with pipeline := d.pipeline.receive }
    else { d with phase := .returned }
  | .returned => d

/-- One move.  Nobody publishes after all publishers are gone, and there is one signal at most. -/
def move (d : Dispatcher) : DispatchMove → Option Dispatcher
  | .publish e =>
    if d.signal = some .publishersGone then none else some { d with pipeline := d.pipeline.publish e }
  | .signal s => if d.signal = none then some { d with signal := some s } else none
  | .turn => some d.turn

/-- A whole interleaving. -/
def run (d : Dispatcher) (l : List DispatchMove) : Option Dispatcher := l.foldlM move d

/-- The events that a move gets into the queue. -/
def intake (d : Dispatcher) : DispatchMove → List ChangeEvent
  | .publish e => d.pipeline.intake e
  | _ => []

/-- The events that a run gets into the queue, in the order of publication. -/
def accepted (d : Dispatcher) : List DispatchMove → List ChangeEvent
  | [] => []
  | m :: l => d.intake m ++ (d.move m).elim [] fun d' => d'.accepted l

/-- The counter that a move adds one to. -/
def tally (d : Dispatcher) : DispatchMove → List Counter
  | .publish e => [d.pipeline.queue.counter e]
  | _ => []

/-- The counters that a run adds one to, publication by publication. -/
def tallied (d : Dispatcher) : List DispatchMove → List Counter
  | [] => []
  | m :: l => d.tally m ++ (d.move m).elim [] fun d' => d'.tallied l

variable {d d' : Dispatcher} {m : DispatchMove} {l : List DispatchMove}

/-- All that a turn can do. -/
inductive Turns (d : Dispatcher) : Dispatcher → Prop
  | take (hphase : d.phase = .asking ∨ d.phase = .emptying) (hw : d.pipeline.queue.waiting ≠ []) :
    Turns d { d with pipeline := d.pipeline.receive }
  | part (hphase : d.phase = .asking) (hw : d.pipeline.queue.waiting = [])
      (hs : d.signal = some .publishersGone) : Turns d { d with phase := .returned }
  | look (hphase : d.phase = .asking) (hw : d.pipeline.queue.waiting = [])
      (hs : d.signal ≠ some .publishersGone) : Turns d { d with phase := .looking }
  | close (hphase : d.phase = .looking) (hs : d.toldToStop = true) :
    Turns d { d with
      pipeline := { d.pipeline with queue := d.pipeline.queue.close }
      phase := .emptying }
  | ask (hphase : d.phase = .looking) (hs : d.toldToStop = false) : Turns d { d with phase := .asking }
  | finish (hphase : d.phase = .emptying) (hw : d.pipeline.queue.waiting = []) :
    Turns d { d with phase := .returned }
  | rest (hphase : d.phase = .returned) : Turns d d

theorem turns_turn (d : Dispatcher) : d.Turns d.turn := by
  unfold turn
  split
  · next h =>
    split_ifs with hw hs
    · exact .take (.inl h) hw
    · exact .part h (not_not.mp hw) hs
    · exact .look h (not_not.mp hw) hs
  · next h =>
    split_ifs with hs
    · exact .close h hs
    · exact .ask h (Bool.eq_false_iff.mpr hs)
  · next h =>
    split_ifs with hw
    · exact .take (.inr h) hw
    · exact .finish h (not_not.mp hw)
  · next h => exact .rest h

theorem run_cons : d.run (m :: l) = (d.move m).bind fun d' => d'.run l := List.foldlM_cons

theorem move_publish {e : ChangeEvent} (h : d.move (.publish e) = some d') :
    d' = { d with pipeline := d.pipeline.publish e } := by
  simp only [move] at h
  split_ifs at h
  exact (Option.some.inj h).symm

theorem move_signal {s : EndSignal} (h : d.move (.signal s) = some d') :
    d.signal = none ∧ d' = { d with signal := some s } := by
  simp only [move] at h
  split_ifs at h with hs
  exact ⟨hs, (Option.some.inj h).symm⟩

theorem move_turn (h : d.move .turn = some d') : d.Turns d' :=
  Option.some.inj h ▸ turns_turn d

/-! ### What a run keeps -/

/-- The order that every interleaving keeps. -/
structure Orderly (d : Dispatcher) : Prop where
  bounded : d.pipeline.queue.waiting.length ≤ d.pipeline.queue.capacity
  emptying : d.phase = .emptying → d.toldToStop = true ∧ d.pipeline.queue.isOpen = false
  returned : d.phase = .returned → d.pipeline.queue.waiting = [] ∧
    (d.signal = some .publishersGone ∨ d.toldToStop = true ∧ d.pipeline.queue.isOpen = false)

theorem orderly_start {capacity subscribers : Nat} : (start capacity subscribers).Orderly where
  bounded := Nat.zero_le _
  emptying h := by cases h
  returned h := by cases h

theorem Orderly.move (ho : d.Orderly) (h : d.move m = some d') : d'.Orderly := by
  obtain ⟨hb, he, hret⟩ := ho
  cases m with
  | publish e =>
    obtain rfl := move_publish h
    cases hroom : d.pipeline.queue.hasRoom with
    | true =>
      obtain ⟨hopen, hlt⟩ := EventQueue.hasRoom_iff.mp hroom
      refine ⟨?_, fun hp => ?_, fun hp => ?_⟩
      · simp only [Pipeline.queue_publish, Pipeline.intake, hroom, if_true, List.length_append,
          List.length_singleton]
        exact hlt
      · exact absurd hopen (by rw [(he hp).2]; decide)
      · -- a queue that is open after the return has lost its publishers
        rcases (hret hp).2 with hs | ⟨-, hclosed⟩
        · simp only [Dispatcher.move, hs, if_true] at h
          cases h
        · exact absurd hopen (by rw [hclosed]; decide)
    | false =>
      have hq : (d.pipeline.publish e).queue = d.pipeline.queue := by
        simp [Pipeline.queue_publish, Pipeline.intake, hroom]
      refine ⟨?_, fun hp => ?_, fun hp => ?_⟩
      · rw [hq]
        exact hb
      · rw [hq]
        exact he hp
      · rw [hq]
        exact hret hp
  | signal s =>
    obtain ⟨hs, rfl⟩ := move_signal h
    have hnot : d.toldToStop = false := by simp [toldToStop, hs]
    refine ⟨hb, fun hp => ?_, fun hp => ?_⟩
    · exact absurd (he hp).1 (by rw [hnot]; decide)
    · rcases (hret hp).2 with hs' | ⟨htold, -⟩
      · rw [hs] at hs'
        cases hs'
      · exact absurd htold (by rw [hnot]; decide)
  | turn =>
    cases move_turn h with
    | take hphase hw =>
      obtain ⟨e, l, hl⟩ := List.exists_cons_of_ne_nil hw
      rw [Pipeline.receive_of_waiting hl]
      refine ⟨?_, he, fun hp => ?_⟩
      · rw [hl] at hb
        exact Nat.le_of_succ_le hb
      · rcases hphase with h' | h' <;> exact absurd (h'.symm.trans hp) (by decide)
    | part hphase hw hs => exact ⟨hb, by rintro ⟨⟩, fun _ => ⟨hw, .inl hs⟩⟩
    | look => exact ⟨hb, by rintro ⟨⟩, by rintro ⟨⟩⟩
    | close hphase hs => exact ⟨hb, fun _ => ⟨hs, rfl⟩, by rintro ⟨⟩⟩
    | ask => exact ⟨hb, by rintro ⟨⟩, by rintro ⟨⟩⟩
    | finish hphase hw => exact ⟨hb, by rintro ⟨⟩, fun _ => ⟨hw, .inr (he hphase)⟩⟩
    | rest => exact ⟨hb, he, hret⟩

theorem Orderly.run (ho : d.Orderly) (h : d.run l = some d') : d'.Orderly := by
  induction l generalizing d with
  | nil => exact Option.some.inj h ▸ ho
  | cons m l ih =>
    rw [run_cons] at h
    obtain ⟨d₁, hm, hl⟩ := Option.bind_eq_some_iff.mp h
    exact ih (ho.move hm) hl

/-- How far a dispatcher gets: what enters the queue, and what is counted. -/
structure Advances (d : Dispatcher) (taken : List ChangeEvent) (counters : List Counter)
    (d' : Dispatcher) : Prop where
  capacity : d'.pipeline.queue.capacity = d.pipeline.queue.capacity
  subscribers : d'.pipeline.subscribers = d.pipeline.subscribers
  underway : d'.pipeline.underway = d.pipeline.underway ++ handedOut d.pipeline.subscribers taken
  count : ∀ k, d'.pipeline.metrics.count k = d.pipeline.metrics.count k + counters.count k
  closed : d.pipeline.queue.isOpen = false →
    d'.pipeline.queue.isOpen = false ∧ taken = [] ∧ ∀ k ∈ counters, k = .dropped

theorem Advances.still (h : d'.pipeline = d.pipeline) : d.Advances [] [] d' where
  capacity := by rw [h]
  subscribers := by rw [h]
  underway := by rw [h, handedOut_nil, List.append_nil]
  count k := by rw [h, List.count_nil, Nat.add_zero]
  closed hc := ⟨by rw [h, hc], rfl, by rintro k ⟨⟩⟩

theorem Advances.trans {d₁ d₂ d₃ : Dispatcher} {t t' : List ChangeEvent} {c c' : List Counter}
    (h : d₁.Advances t c d₂) (h' : d₂.Advances t' c' d₃) : d₁.Advances (t ++ t') (c ++ c') d₃ where
  capacity := h'.capacity.trans h.capacity
  subscribers := h'.subscribers.trans h.subscribers
  underway := by
    rw [h'.underway, h.underway, h.subscribers, handedOut_append, List.append_assoc]
  count k := by
    rw [h'.count, h.count, List.count_append, Nat.add_assoc]
  closed hc := by
    obtain ⟨hc₁, rfl, hd⟩ := h.closed hc
    obtain ⟨hc₂, rfl, hd'⟩ := h'.closed hc₁
    refine ⟨hc₂, rfl, fun k hk => ?_⟩
    rcases List.mem_append.mp hk with hk | hk
    · exact hd k hk
    · exact hd' k hk

/-- A turn delivers what it takes out of the queue, and counts nothing. -/
theorem Turns.advances (h : d.Turns d') : d.Advances [] [] d' := by
  cases h with
  | take hphase hw =>
    obtain ⟨e, l, hl⟩ := List.exists_cons_of_ne_nil hw
    have hreceive := Pipeline.underway_receive (p := d.pipeline)
    rw [Pipeline.receive_of_waiting hl] at hreceive ⊢
    exact ⟨rfl, rfl, hreceive.trans (List.append_nil _).symm, fun _ => rfl,
      fun hc => ⟨hc, rfl, by rintro k ⟨⟩⟩⟩
  | part => exact Advances.still rfl
  | look => exact Advances.still rfl
  | close => exact ⟨rfl, rfl, (List.append_nil _).symm, fun _ => rfl, fun _ => ⟨rfl, rfl, by rintro k ⟨⟩⟩⟩
  | ask => exact Advances.still rfl
  | finish => exact Advances.still rfl
  | rest => exact Advances.still rfl

theorem advances_move (h : d.move m = some d') : d.Advances (d.intake m) (d.tally m) d' := by
  cases m with
  | publish e =>
    obtain rfl := move_publish h
    refine ⟨?_, rfl, Pipeline.underway_publish, fun k => ?_, fun hc => ?_⟩
    · show (d.pipeline.publish e).queue.capacity = d.pipeline.queue.capacity
      rw [Pipeline.queue_publish]
    · show (d.pipeline.publish e).metrics.count k = _ + List.count k [_]
      rw [Pipeline.metrics_publish, Metrics.count_add, List.count_singleton]
      by_cases hk : d.pipeline.queue.counter e = k <;> simp [hk]
    · have hroom : d.pipeline.queue.hasRoom = false := by simp [EventQueue.hasRoom, hc]
      refine ⟨?_, by simp [intake, Pipeline.intake, hroom], fun k hk => ?_⟩
      · show (d.pipeline.publish e).queue.isOpen = false
        rw [Pipeline.queue_publish]
        exact hc
      · rw [List.mem_singleton.mp hk]
        exact EventQueue.counter_eq_dropped_iff.mpr hroom
  | signal s =>
    obtain ⟨-, rfl⟩ := move_signal h
    exact Advances.still rfl
  | turn => exact (move_turn h).advances

/-- **Every interleaving** keeps track of what is accepted and of what is counted. -/
theorem advances_run (h : d.run l = some d') : d.Advances (d.accepted l) (d.tallied l) d' := by
  induction l generalizing d with
  | nil => exact Advances.still (congrArg pipeline (Option.some.inj h).symm)
  | cons m l ih =>
    rw [run_cons] at h
    obtain ⟨d₁, hm, hl⟩ := Option.bind_eq_some_iff.mp h
    simp only [accepted, tallied, hm, Option.elim_some]
    exact (advances_move hm).trans (ih hl)

/-! ### Coming to an end -/

/-- The turns that a dispatcher has to take after its signal. -/
def turnsLeft (d : Dispatcher) : Nat :=
  match d.phase with
  | .asking => d.pipeline.queue.waiting.length + if d.signal = some .publishersGone then 1 else 3
  | .looking => d.pipeline.queue.waiting.length + 2
  | .emptying => d.pipeline.queue.waiting.length + 1
  | .returned => 0

theorem turnsLeft_le (d : Dispatcher) : d.turnsLeft ≤ d.pipeline.queue.waiting.length + 3 := by
  unfold turnsLeft
  split <;> try split
  all_goals omega

theorem toldToStop_iff {s : EndSignal} (hs : d.signal = some s) :
    d.toldToStop = true ↔ s.ending = .shutdown := by
  simp [toldToStop, hs]

/-- After its signal each of the dispatcher's own turns brings it closer to its end, and the outcome stays
as it is. -/
theorem Turns.finish_eq {s : EndSignal} (h : d.Turns d') (hs : d.signal = some s)
    (hp : d.phase ≠ .returned) :
    d'.turnsLeft < d.turnsLeft ∧ d'.signal = some s ∧
      d'.pipeline.finish s.ending = d.pipeline.finish s.ending := by
  have hend : s.ending = .publishersGone ∨ s.ending = .shutdown := by cases s <;> decide
  cases h with
  | take hphase hw =>
    obtain ⟨e, l, hl⟩ := List.exists_cons_of_ne_nil hw
    refine ⟨?_, hs, Pipeline.finish_receive hend⟩
    have hshorter : d.pipeline.receive.queue.waiting.length + 1 = d.pipeline.queue.waiting.length := by
      rw [Pipeline.receive_of_waiting hl, hl]
      rfl
    rcases hphase with hphase | hphase
    · simp only [turnsLeft, hphase]
      omega
    · simp only [turnsLeft, hphase]
      omega
  | part hphase hw hgone =>
    refine ⟨?_, hs, rfl⟩
    simp [turnsLeft, hphase, hgone]
  | look hphase hw hgone =>
    refine ⟨?_, hs, rfl⟩
    simp [turnsLeft, hphase, hgone]
  | close hphase htold =>
    refine ⟨?_, hs, ?_⟩
    · simp [turnsLeft, hphase, EventQueue.close]
    · rw [(toldToStop_iff hs).mp htold, Pipeline.finish_shutdown, Pipeline.finish_shutdown]
      rfl
  | ask hphase htold =>
    -- only without publishers does the dispatcher look in vain
    have hgone : s = .publishersGone := by
      cases s with
      | publishersGone => rfl
      | shutdown => simp [toldToStop, hs, EndSignal.ending] at htold
      | abandoned => simp [toldToStop, hs, EndSignal.ending] at htold
    refine ⟨?_, hs, rfl⟩
    simp [turnsLeft, hphase, hs, hgone]
  | finish hphase hw =>
    refine ⟨?_, hs, rfl⟩
    simp [turnsLeft, hphase]
  | rest hphase => exact absurd hphase hp

/-- What is over is over. -/
theorem Orderly.finish_eq {s : EndSignal} (ho : d.Orderly) (hs : d.signal = some s)
    (hp : d.phase = .returned) : d.pipeline.finish s.ending = d.pipeline := by
  obtain ⟨hw, hend⟩ := ho.returned hp
  have hunder : d.pipeline.underway = d.pipeline.delivered := by
    simp only [Pipeline.underway, hw, handedOut_nil, List.append_nil]
  rcases hend with hgone | ⟨htold, hclosed⟩
  · obtain rfl := Option.some.inj (hs.symm.trans hgone)
    show d.pipeline.finish .publishersGone = d.pipeline
    rw [Pipeline.finish_publishersGone, hunder, ← hw]
  · rw [(toldToStop_iff hs).mp htold, Pipeline.finish_shutdown, hunder, ← hw, ← hclosed]

/-- **The end.**  Left alone after its signal, the dispatcher returns, with the outcome of
`Pipeline.finish`. -/
theorem turns_finish {s : EndSignal} (ho : d.Orderly) (hs : d.signal = some s) :
    ∃ n, n ≤ d.pipeline.queue.waiting.length + 3 ∧
      d.run (List.replicate n .turn) = some ⟨d.pipeline.finish s.ending, .returned, some s⟩ := by
  suffices hmain : ∃ n, n ≤ d.turnsLeft ∧
      d.run (List.replicate n .turn) = some ⟨d.pipeline.finish s.ending, .returned, some s⟩ by
    obtain ⟨n, hn, hrun⟩ := hmain
    exact ⟨n, Nat.le_trans hn d.turnsLeft_le, hrun⟩
  generalize hk : d.turnsLeft = k
  induction k using Nat.strongRecOn generalizing d with
  | ind k ih =>
    by_cases hp : d.phase = .returned
    · refine ⟨0, Nat.zero_le _, ?_⟩
      rw [ho.finish_eq hs hp, ← hp, ← hs]
      rfl
    · obtain ⟨hless, hs', hfin⟩ := (turns_turn d).finish_eq hs hp
      obtain ⟨n, hn, hrun⟩ := ih _ (hk ▸ hless) (ho.move (m := .turn) rfl) hs' rfl
      refine ⟨n + 1, by omega, ?_⟩
      rw [List.replicate_succ, run_cons]
      show d.turn.run _ = _
      rw [hrun, hfin]

/-! ### Accepted and received -/

/-- What publishers and subscribers can rely on after an interleaving `l` has led to `d`. -/
structure Faithful (capacity subscribers : Nat) (l : List DispatchMove) (d : Dispatcher) : Prop where
  bounded : d.pipeline.queue.waiting.length ≤ max capacity 1
  /-- A publication moves one counter by one, and which one depends on the queue. -/
  counts : ∀ e d', d.move (.publish e) = some d' → ∃ k,
    (k = .published e.group e.action ∨ k = .dropped) ∧
      (k = .published e.group e.action ↔
        d.pipeline.queue.isOpen = true ∧ d.pipeline.queue.waiting.length < max capacity 1) ∧
      ∀ k', d'.pipeline.metrics.count k' = d.pipeline.metrics.count k' + if k' = k then 1 else 0
  totals : ∀ k, d.pipeline.metrics.count k = ((start capacity subscribers).tallied l).count k
  /-- What is accepted has been delivered in order or still waits. -/
  kept : d.pipeline.delivered ++ handedOut subscribers d.pipeline.queue.waiting =
    handedOut subscribers ((start capacity subscribers).accepted l)
  complete : d.phase = .returned →
    d.pipeline.delivered = handedOut subscribers ((start capacity subscribers).accepted l) ∧
      ∀ i < subscribers, d.pipeline.received i = (start capacity subscribers).accepted l
  /-- Whatever happens next, a shutdown included, what waits now comes before what is accepted later. -/
  next : ∀ l' d', d.run l' = some d' → d'.phase = .returned → ∀ i < subscribers,
    d'.pipeline.received i = d.pipeline.received i ++ d.pipeline.queue.waiting ++ d.accepted l'
  closed : d.pipeline.queue.isOpen = false → ∀ l' d', d.run l' = some d' →
    d.accepted l' = [] ∧ ∀ k ∈ d.tallied l', k = .dropped
  ends : ∀ s, d.signal = some s → ∃ n, n ≤ d.pipeline.queue.waiting.length + 3 ∧
    d.run (List.replicate n .turn) = some ⟨d.pipeline.finish s.ending, .returned, some s⟩

variable {capacity subscribers : Nat}

theorem counts_publish {e : ChangeEvent} (h : d.move (.publish e) = some d') :
    ∃ k, (k = .published e.group e.action ∨ k = .dropped) ∧
      (k = .published e.group e.action ↔ d.pipeline.queue.isOpen = true ∧
        d.pipeline.queue.waiting.length < d.pipeline.queue.capacity) ∧
      ∀ k', d'.pipeline.metrics.count k' = d.pipeline.metrics.count k' + if k' = k then 1 else 0 := by
  refine ⟨d.pipeline.queue.counter e, ?_, ?_, fun k' => ?_⟩
  · unfold EventQueue.counter
    split_ifs
    · exact .inl rfl
    · exact .inr rfl
  · rw [← EventQueue.hasRoom_iff]
    cases hroom : d.pipeline.queue.hasRoom <;> simp [EventQueue.counter, hroom]
  · rw [(advances_move h).count k']
    show _ + List.count k' [d.pipeline.queue.counter e] = _
    rw [List.count_singleton]
    simp only [beq_iff_eq, eq_comm (a := k')]

/-- A dispatcher that has returned has delivered all that was underway. -/
theorem Orderly.delivered_eq (ho : d.Orderly) (hp : d.phase = .returned) :
    d.pipeline.delivered = d.pipeline.underway := by
  rw [Pipeline.underway, (ho.returned hp).1, handedOut_nil, List.append_nil]

/-- **Accepted is received.**  Whatever the order of publications, turns and the signal: each subscriber
receives what the queue accepts, once and in the order of publication. -/
theorem faithful_of_run (hr : (start capacity subscribers).run l = some d) :
    Faithful capacity subscribers l d := by
  have ho : d.Orderly := orderly_start.run hr
  have hadv := advances_run hr
  have hcap : d.pipeline.queue.capacity = max capacity 1 := hadv.capacity
  have hsub : d.pipeline.subscribers = subscribers := hadv.subscribers
  have hunder : d.pipeline.underway = handedOut subscribers ((start capacity subscribers).accepted l) :=
    hadv.underway
  refine ⟨hcap ▸ ho.bounded, ?_, ?_, ?_, ?_, ?_, ?_, fun s hs => turns_finish ho hs⟩
  · intro e d' hm
    rw [← hcap]
    exact counts_publish hm
  · intro k
    rw [hadv.count k]
    exact Nat.zero_add _
  · rw [← hunder, Pipeline.underway, hsub]
  · intro hp
    have hdelivered := (ho.delivered_eq hp).trans hunder
    refine ⟨hdelivered, fun i hi => ?_⟩
    rw [Pipeline.received, hdelivered, heard_handedOut hi]
  · intro l' d' hr' hp i hi
    have hall : d'.pipeline.delivered = d.pipeline.delivered ++
        handedOut subscribers d.pipeline.queue.waiting ++ handedOut subscribers (d.accepted l') := by
      rw [(ho.run hr').delivered_eq hp, (advances_run hr').underway, Pipeline.underway, hsub]
    rw [Pipeline.received, hall, heard_append, heard_append, heard_handedOut hi, heard_handedOut hi]
    rfl
  · intro hc l' d' hr'
    exact ((advances_run hr').closed hc).2

/-- An event about one route. -/
def routeEvent (id : String) : ChangeEvent :=
  .single .discoveredEndpoint .update { pluginName := "p", selectorId := id, selectorName := "", namespaceId := "ns" }

/-- The second event finds the queue full; the third one gets in just before the queue is closed, and the
fourth one is too late. -/
def lateShutdown : List DispatchMove :=
  [.publish (routeEvent "s1"), .publish (routeEvent "s2"), .turn, .turn, .publish (routeEvent "s3"),
    .signal .shutdown, .turn, .publish (routeEvent "s4"), .turn, .turn]

theorem faithful_lateShutdown :
    ∃ d, (start 0 2).run lateShutdown = some d ∧ d.phase = .returned ∧ Faithful 0 2 lateShutdown d ∧
      d.pipeline.received 0 = [routeEvent "s1", routeEvent "s3"] ∧
      d.pipeline.received 1 = [routeEvent "s1", routeEvent "s3"] ∧
      d.pipeline.metrics.count .dropped = 2 := by
  obtain ⟨d, hd⟩ : ∃ d, (start 0 2).run lateShutdown = some d := ⟨_, rfl⟩
  have hfaithful := faithful_of_run hd
  have hreturned : d.phase = .returned := by
    cases hd
    rfl
  have haccepted : (start 0 2).accepted lateShutdown = [routeEvent "s1", routeEvent "s3"] := by
    decide +kernel
  have hdropped : ((start 0 2).tallied lateShutdown).count .dropped = 2 := by decide +kernel
  refine ⟨d, hd, hreturned, hfaithful, ?_, ?_, ?_⟩
  · rw [(hfaithful.complete hreturned).2 0 (by decide), haccepted]
  · rw [(hfaithful.complete hreturned).2 1 (by decide), haccepted]
  · rw [hfaithful.totals, hdropped]

end Dispatcher

end RouteSync
