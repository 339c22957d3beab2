import Kei.Changes.Feed
import Mathlib.Data.Prod.Lex

/-!
# Kei.Changes.Waits

When the producer of a stream and its consumer wait for each other.

A consumer that leaves its loop on shutdown has taken at least one message, and
keeps the channel while it waits for the token.  The producer gets to the token
if all its other messages fit into the channel, so the two waits meet for the
feeds with more than 201 messages, and for no other.
-/

namespace Kei.Changes

open Relation Endings

variable {host : Host} {drain : DrainOrder} {p : Producer}

/-! ## the producer -/

/-- The steps from a request on. -/
def Feed.left (host : Host) (drain : DrainOrder) : DeltaRecordBuffer → Feed → Nat
  | buffer, .failed _ => (buffer.flush drain).length + 3
  | buffer, .last records _ =>
      let (buffer, events) := buffer.processRecords host records
      events.length + (buffer.flush drain).length + 4
  | buffer, .more records _ rest =>
      let (buffer, events) := buffer.processRecords host records
      events.length + Feed.left host drain buffer rest + 2

/-- The steps that are left for the producer. -/
def Producer.left (host : Host) (drain : DrainOrder) : Producer → Nat
  | .requesting buffer _ feed => feed.left host drain buffer
  | .sending events buffer _ (some rest) => events.length + rest.left host drain buffer + 1
  | .sending events buffer _ none => events.length + (buffer.flush drain).length + 3
  | .flushing events _ _ => events.length + 2
  | .sendingToken _ => 1
  | .finished => 0

/-- What the producer does next, by what it has still to send. -/
def Act.Sends (host : Host) (drain : DrainOrder) (p : Producer) : Act → Prop
  | .goOn next => next.messages host drain = p.messages host drain ∧
      next.left host drain < p.left host drain ∧ next ≠ .finished
  | .send message sent closed =>
      p.messages host drain = message :: sent.messages host drain ∧
        sent.left host drain < p.left host drain ∧ sent ≠ .finished ∧
        closed.left host drain < p.left host drain ∧ closed ≠ .finished
  | .sendToken _ => p.messages host drain = [] ∧ 0 < p.left host drain
  | .nothing => p = .finished

theorem act_sends (p : Producer) : (p.act host drain).Sends host drain p := by
  cases p with
  | requesting buffer currentToken feed =>
      cases feed <;> simp [Producer.act, Act.Sends, Producer.messages, Producer.left, Feed.messages,
        Feed.left, flushed]
  | sending events buffer currentToken rest =>
      cases events <;> cases rest <;> grind [Producer.act, Act.Sends, Producer.messages,
        Producer.left, flushed]
  | flushing events currentToken streamError =>
      cases events <;> cases streamError <;> simp [Producer.act, Act.Sends, Producer.messages,
        Producer.left]
  | sendingToken currentToken => simp [Producer.act, Act.Sends, Producer.messages, Producer.left]
  | finished => rfl

theorem act_goOn {next : Producer} (h : p.act host drain = .goOn next) :
    next.messages host drain = p.messages host drain ∧
      next.left host drain < p.left host drain ∧ next ≠ .finished := by
  have hsends := @act_sends host drain p
  rwa [h] at hsends

theorem act_send {message : Message} {sent closed : Producer}
    (h : p.act host drain = .send message sent closed) :
    p.messages host drain = message :: sent.messages host drain ∧
      sent.left host drain < p.left host drain ∧ sent ≠ .finished ∧
      closed.left host drain < p.left host drain ∧ closed ≠ .finished := by
  have hsends := @act_sends host drain p
  rwa [h] at hsends

theorem act_sendToken {token : String} (h : p.act host drain = .sendToken token) :
    p.messages host drain = [] ∧ 0 < p.left host drain := by
  have hsends := @act_sends host drain p
  rwa [h] at hsends

theorem act_nothing (h : p.act host drain = .nothing) : p = .finished := by
  have hsends := @act_sends host drain p
  rwa [h] at hsends

/-! ## consumers -/

variable {κ : Type} {c : Consumer κ} {s s' : System κ}

/-- What is asked of a consumer. -/
structure Consumer.Laws (c : Consumer κ) where
  /-- The steps that are left for it when nothing is taken. -/
  weight : κ → Nat
  start_reading : c.stance c.start = .reading
  others_lighter : ∀ state next, c.others state next → weight next < weight state
  ended_lighter : ∀ state, c.stance state = .reading → weight (c.ended state) < weight state
  receive_lighter : ∀ state token, c.stance state = .waiting →
    weight (c.receiveToken state token) < weight state
  /-- A busy consumer is not held up. -/
  busy : ∀ state, c.stance state = .busy → ∃ next, c.others state next
  reading_others : ∀ state next, c.stance state = .reading → c.others state next →
    c.stance next = .reading ∨ c.stance next = .finished
  finished_others : ∀ state next, c.stance state = .finished → c.others state next →
    c.stance next = .finished
  /-- Shutdown makes it leave the loop, and wait. -/
  leaves : ∀ message, ∃ state, ReflTransGen c.others (c.take c.start true message) state ∧
    c.stance state = .waiting

variable (host drain) in
/-- What holds at every point of a run over a feed with the messages `all`. -/
structure Consumer.Holds (c : Consumer κ) (all : List Message) (s : System κ) : Prop where
  /-- No message is lost, and without one taken the consumer is still in its loop. -/
  conserved : c.Receives s → ∃ taken, all = taken ++ s.queue ++ s.producer.messages host drain ∧
    (taken = [] → c.stance s.consumer = .reading ∨ s.producer = .finished)
  token : s.producer = .finished → s.token ≠ none

theorem holds_initial (laws : c.Laws) (initialToken : String) (feed : Feed) :
    c.Holds host drain (feed.messages host drain .new) (c.initial initialToken feed) :=
  ⟨fun _ => ⟨[], by simp [Consumer.initial, Producer.messages], fun _ => .inl laws.start_reading⟩,
    by simp [Consumer.initial]⟩

variable {all : List Message}

/-- A step of the producer that keeps what is queued and still to be sent. -/
theorem Consumer.Holds.produced (h : c.Holds host drain all s) {next : Producer}
    {queue : List Message} (hnext : next ≠ .finished) (hfinished : s.producer ≠ .finished)
    (hall : c.Receives s →
      queue ++ next.messages host drain = s.queue ++ s.producer.messages host drain) :
    c.Holds host drain all { s with producer := next, queue := queue } := by
  refine ⟨fun hreceives => ?_, fun h => absurd h hnext⟩
  obtain ⟨taken, hconserved, hfirst⟩ := h.conserved hreceives
  refine ⟨taken, ?_, fun htaken => (hfirst htaken).imp_right (fun h => absurd h hfinished)⟩
  rw [hconserved, List.append_assoc, List.append_assoc, hall hreceives]

theorem finished_act {act : Act} (h : p.act host drain = act) (hact : act ≠ .nothing) :
    p ≠ .finished := by
  rintro rfl
  exact hact h.symm

theorem Consumer.Holds.consumed (h : c.Holds host drain all s) {next : κ}
    (hreceives : c.stance next ≠ .finished → c.Receives s)
    (hnext : c.stance next ≠ .finished → c.stance s.consumer = .reading →
      c.stance next = .reading ∨ s.producer = .finished) :
    c.Holds host drain all { s with consumer := next } := by
  refine ⟨fun hopen => ?_, h.token⟩
  obtain ⟨taken, hconserved, hfirst⟩ := h.conserved (hreceives hopen)
  exact ⟨taken, hconserved, fun htaken => (hfirst htaken).elim (hnext hopen) .inr⟩

/-- **A step loses no message.** -/
theorem holds_step (laws : c.Laws) (h : c.Holds host drain all s) (hstep : c.Step host drain s s') :
    c.Holds host drain all s' := by
  cases hstep with
  | goOn hact =>
      obtain ⟨hmessages, -, hnext⟩ := act_goOn hact
      exact h.produced hnext (finished_act hact (by simp)) (fun _ => by rw [hmessages])
  | send hact hreceives hroom =>
      obtain ⟨hmessages, -, hsent, -⟩ := act_send hact
      exact h.produced hsent (finished_act hact (by simp)) (fun _ => by simp [hmessages])
  | sendClosed hact hclosed =>
      obtain ⟨-, -, -, -, hnext⟩ := act_send hact
      exact h.produced hnext (finished_act hact (by simp)) (fun hopen => absurd hopen hclosed)
  | sendToken hact =>
      obtain ⟨hmessages, -⟩ := act_sendToken hact
      refine ⟨fun hopen => ?_, by simp⟩
      obtain ⟨taken, hconserved, -⟩ := h.conserved hopen
      rw [hmessages] at hconserved
      exact ⟨taken, hconserved, fun _ => .inr rfl⟩
  | @take message queue hreading hqueue =>
      refine ⟨fun _ => ?_, h.token⟩
      obtain ⟨taken, hconserved, -⟩ := h.conserved (by simp [Consumer.Receives, hreading])
      exact ⟨taken ++ [message], by simp [hconserved, hqueue], by simp⟩
  | ended hreading _ hgone =>
      exact h.consumed (fun _ => by simp [Consumer.Receives, hreading]) (fun _ _ => .inr hgone)
  | receiveToken hwaiting _ =>
      exact h.consumed (fun _ => by simp [Consumer.Receives, hwaiting])
        (fun _ hreading => by simp [hreading] at hwaiting)
  | others hother =>
      refine h.consumed (fun hopen hfinished => hopen ?_) (fun hopen hreading => ?_)
      · exact laws.finished_others _ _ hfinished hother
      · exact .inl ((laws.reading_others _ _ hreading hother).resolve_right hopen)
  | shutdown _ => exact ⟨h.conserved, h.token⟩

/-! ## runs are finite -/

/-- What a step makes smaller. -/
def Consumer.Laws.remaining (laws : c.Laws) (host : Host) (drain : DrainOrder) (s : System κ) :
    Nat ×ₗ Nat ×ₗ Nat ×ₗ Nat :=
  toLex (s.producer.left host drain, toLex (if s.shutdown then 0 else 1,
    toLex (s.queue.length, laws.weight s.consumer)))

theorem step_remaining (laws : c.Laws) (hstep : c.Step host drain s s') :
    laws.remaining host drain s' < laws.remaining host drain s := by
  cases hstep with
  | goOn hact =>
      have hleft := (act_goOn hact).2.1
      simp [Consumer.Laws.remaining, Prod.Lex.toLex_lt_toLex, hleft]
  | send hact _ _ =>
      have hleft := (act_send hact).2.1
      simp [Consumer.Laws.remaining, Prod.Lex.toLex_lt_toLex, hleft]
  | sendClosed hact _ =>
      have hleft := (act_send hact).2.2.2.1
      simp [Consumer.Laws.remaining, Prod.Lex.toLex_lt_toLex, hleft]
  | sendToken hact =>
      have hleft := (act_sendToken hact).2
      have hfinished : Producer.finished.left host drain = 0 := rfl
      simp [Consumer.Laws.remaining, Prod.Lex.toLex_lt_toLex, hfinished, hleft]
  | take _ hqueue => simp [Consumer.Laws.remaining, Prod.Lex.toLex_lt_toLex, hqueue]
  | ended hreading _ _ =>
      have hlighter := laws.ended_lighter _ hreading
      simp [Consumer.Laws.remaining, Prod.Lex.toLex_lt_toLex, hlighter]
  | @receiveToken token hwaiting _ =>
      have hlighter := laws.receive_lighter _ token hwaiting
      simp [Consumer.Laws.remaining, Prod.Lex.toLex_lt_toLex, hlighter]
  | others hother =>
      have hlighter := laws.others_lighter _ _ hother
      simp [Consumer.Laws.remaining, Prod.Lex.toLex_lt_toLex, hlighter]
  | shutdown h => simp [Consumer.Laws.remaining, Prod.Lex.toLex_lt_toLex, h]

/-! ## short feeds -/

theorem not_meets (h : c.Holds host drain all s) (hshort : all.length ≤ channelCapacity + 1) :
    ¬c.Meets host drain s := by
  rintro ⟨hwaiting, message, sent, closed, hact, hreceives, hfull⟩
  obtain ⟨taken, hconserved, hfirst⟩ := h.conserved hreceives
  have hmessages := (act_send hact).1
  have hlength : all.length = taken.length + s.queue.length +
      (sent.messages host drain).length + 1 := by
    simp [hconserved, hmessages]
    omega
  have htaken : taken = [] := List.length_eq_zero_iff.mp (by omega)
  obtain hreading | hfinished := hfirst htaken
  · simp [hreading] at hwaiting
  · exact finished_act hact (by simp) hfinished

theorem producer_steps (hproducer : s.producer ≠ .finished) (hblocked : ¬c.Blocked host drain s) :
    ∃ s', c.Step host drain s s' := by
  cases hact : s.producer.act host drain with
  | goOn next => exact ⟨_, .goOn hact⟩
  | send message sent closed =>
      by_cases hreceives : c.Receives s
      · have hroom : s.queue.length < channelCapacity := by
          by_contra hfull
          exact hblocked ⟨message, sent, closed, hact, hreceives, by omega⟩
        exact ⟨_, .send hact hreceives hroom⟩
      · exact ⟨_, .sendClosed hact hreceives⟩
  | sendToken token => exact ⟨_, .sendToken hact⟩
  | nothing => exact absurd (act_nothing hact) hproducer

/-- Where no step is left, both sides are done or wait for each other. -/
theorem stuck_cases (laws : c.Laws) (h : c.Holds host drain all s)
    (hstuck : Stuck (c.Step host drain) s) : c.Done s ∨ c.Meets host drain s := by
  have hproducer : s.producer = .finished ∨ c.Blocked host drain s := by
    by_contra hgoes
    rw [not_or] at hgoes
    obtain ⟨s', hstep⟩ := producer_steps hgoes.1 hgoes.2
    exact hstuck s' hstep
  cases hstance : c.stance s.consumer with
  | reading =>
      cases hqueue : s.queue with
      | nil =>
          obtain hfinished | ⟨_, _, _, _, _, hfull⟩ := hproducer
          · exact absurd (.ended hstance hqueue hfinished) (hstuck _)
          · simp [hqueue, channelCapacity] at hfull
      | cons message queue => exact absurd (.take hstance hqueue) (hstuck _)
  | busy =>
      obtain ⟨next, hother⟩ := laws.busy _ hstance
      exact absurd (.others hother) (hstuck _)
  | waiting =>
      refine .inr ⟨hstance, hproducer.resolve_left (fun hfinished => ?_)⟩
      obtain ⟨token, htoken⟩ := Option.ne_none_iff_exists'.mp (h.token hfinished)
      exact hstuck _ (.receiveToken hstance htoken)
  | finished =>
      refine .inl ⟨hproducer.resolve_right ?_, hstance⟩
      rintro ⟨_, _, _, _, hreceives, _⟩
      exact hreceives hstance

theorem finishes_of_short (laws : c.Laws) {initialToken : String} {feed : Feed}
    (hshort : (feed.messages host drain .new).length ≤ channelCapacity + 1) :
    c.Finishes host drain initialToken feed := by
  have hholds := @holds_initial host drain κ c laws initialToken feed
  refine ⟨fun s hrun => ?_, ?_⟩
  · exact not_meets (invariant (fun _ _ => holds_step laws) hholds hrun) hshort
  · exact endsIn_of_smaller (wellFounded_lt) (fun _ _ => step_remaining laws)
      (fun _ _ => holds_step laws) hholds
      (fun s h hstuck => (stuck_cases laws h hstuck).resolve_right (not_meets h hshort))

/-! ## long feeds -/

theorem reaches_send (s : System κ) {message : Message} {rest : List Message}
    (h : s.producer.messages host drain = message :: rest) :
    ∃ next sent closed, ReflTransGen (c.Step host drain) s { s with producer := next } ∧
      next.act host drain = .send message sent closed ∧ sent.messages host drain = rest := by
  induction hleft : s.producer.left host drain using Nat.strong_induction_on generalizing s with
  | _ n ih =>
    cases hact : s.producer.act host drain with
    | goOn next =>
        obtain ⟨hmessages, hlt, -⟩ := act_goOn hact
        obtain ⟨next', sent, closed, hrun, hsend, hrest⟩ :=
          ih _ (hleft ▸ hlt) { s with producer := next } (hmessages.trans h) rfl
        exact ⟨next', sent, closed, .head (.goOn hact) hrun, hsend, hrest⟩
    | send message' sent closed =>
        have hmessages := h.symm.trans (act_send hact).1
        simp only [List.cons.injEq] at hmessages
        exact ⟨s.producer, sent, closed, .refl, by rw [hact, hmessages.1], hmessages.2.symm⟩
    | sendToken token => simp [(act_sendToken hact).1] at h
    | nothing => simp [act_nothing hact, Producer.messages] at h

theorem reaches_full (n : Nat) (hreceives : c.Receives s)
    (hroom : s.queue.length + n ≤ channelCapacity)
    (hmore : n ≤ (s.producer.messages host drain).length) :
    ∃ next, ReflTransGen (c.Step host drain) s { s with
        producer := next, queue := s.queue ++ (s.producer.messages host drain).take n } ∧
      next.messages host drain = (s.producer.messages host drain).drop n := by
  induction n generalizing s with
  | zero => exact ⟨s.producer, by simpa using ReflTransGen.refl, by simp⟩
  | succ n ih =>
      cases hmessages : s.producer.messages host drain with
      | nil => simp [hmessages] at hmore
      | cons message rest =>
          obtain ⟨next, sent, closed, hrun, hsend, hrest⟩ := reaches_send (c := c) s hmessages
          let s' : System κ := { s with producer := sent, queue := s.queue ++ [message] }
          have hstep : c.Step host drain { s with producer := next } s' :=
            .send hsend hreceives (by simp only; omega)
          have hroom' : s'.queue.length + n ≤ channelCapacity := by
            simp only [s', List.length_append, List.length_singleton]
            omega
          have hmore' : n ≤ (s'.producer.messages host drain).length := by
            rw [hmessages, List.length_cons] at hmore
            show n ≤ (sent.messages host drain).length
            rw [hrest]
            omega
          obtain ⟨last, hrun', hlast⟩ := ih (s := s') hreceives hroom' hmore'
          refine ⟨last, (hrun.tail hstep).trans ?_, ?_⟩
          · simpa [s', hrest] using hrun'
          · simpa [s', hrest] using hlast

/-- **With more messages the waits can meet.** -/
theorem meets_of_long (laws : c.Laws) (initialToken : String) {feed : Feed}
    (hlong : channelCapacity + 1 < (feed.messages host drain .new).length) :
    ∃ s, ReflTransGen (c.Step host drain) (c.initial initialToken feed) s ∧
      c.Meets host drain s := by
  let start := c.initial initialToken feed
  have hreads : c.stance start.consumer = .reading := laws.start_reading
  cases hmessages : start.producer.messages host drain with
  | nil =>
      have hnone : feed.messages host drain .new = [] := hmessages
      simp [hnone] at hlong
  | cons message rest =>
      -- The first message is sent, shutdown is requested, and the message is taken.
      obtain ⟨first, hfirst, hrest⟩ := @reaches_full host drain κ c start 1
        (by simp [Consumer.Receives, hreads])
        (by simp [start, Consumer.initial, channelCapacity]) (by simp [hmessages])
      simp only [hmessages, List.drop_one, List.tail_cons, List.take_succ_cons, List.take_zero]
        at hfirst hrest
      obtain ⟨state, hleaves, hwaiting⟩ := laws.leaves message
      let left : System κ := ⟨first, [], none, true, state⟩
      have hleft : ReflTransGen (c.Step host drain) start left := by
        refine (hfirst.tail (.shutdown rfl)).trans (.head (.take hreads rfl) ?_)
        exact ReflTransGen.lift (fun state => (⟨first, [], none, true, state⟩ : System κ))
          (fun _ _ hother => Consumer.Step.others hother) _ _ hleaves
      -- The producer goes on until the channel is full.
      have hlength : (feed.messages host drain .new).length = rest.length + 1 :=
        congrArg List.length hmessages
      have hreceives : c.Receives left := by simp [Consumer.Receives, left, hwaiting]
      obtain ⟨next, hrun, hnext⟩ := @reaches_full host drain κ c left channelCapacity
        hreceives (by simp [left])
        (by show channelCapacity ≤ (first.messages host drain).length; rw [hrest]; omega)
      have hmore : next.messages host drain ≠ [] := by
        rw [hnext, show left.producer.messages host drain = rest from hrest]
        simp
        omega
      obtain ⟨message', rest', hmessages'⟩ := List.exists_cons_of_ne_nil hmore
      obtain ⟨last, sent, closed, hlast, hsend, -⟩ := reaches_send (c := c)
        { left with producer := next, queue := [] ++
          (left.producer.messages host drain).take channelCapacity } hmessages'
      refine ⟨_, (hleft.trans hrun).trans hlast, hwaiting, message', sent, closed, hsend,
        hreceives, ?_⟩
      show channelCapacity ≤ ([] ++ (first.messages host drain).take channelCapacity).length
      rw [hrest, List.nil_append, List.length_take]
      omega

/-- **Both sides finish exactly if the feed has at most one message more than the channel.** -/
theorem finishes_iff (laws : c.Laws) (initialToken : String) (feed : Feed) :
    c.Finishes host drain initialToken feed ↔
      (feed.messages host drain .new).length ≤ channelCapacity + 1 := by
  refine ⟨fun hfinishes => ?_, finishes_of_short laws⟩
  by_contra hlong
  obtain ⟨s, hrun, hmeets⟩ := meets_of_long laws initialToken (Nat.lt_of_not_le hlong)
  exact hfinishes.1 s hrun hmeets

/-! ## the two consumers -/

theorem no_others (state next : Collecting) : ¬collecting.others state next := id

/-- The steps that are left for the collecting loop. -/
def Collecting.weight : Collecting → Nat
  | .reading _ => 2
  | .waiting _ => 1
  | .finished _ => 0

def collectingLaws : collecting.Laws where
  weight := Collecting.weight
  start_reading := rfl
  others_lighter state next h := absurd h (no_others state next)
  ended_lighter state h := by
    cases state with
    | reading changeEvents => simp [collecting, Collecting.ended, Collecting.weight]
    | waiting changeEvents => simp [collecting, Collecting.stance] at h
    | finished result => simp [collecting, Collecting.stance] at h
  receive_lighter state token h := by
    cases state with
    | reading changeEvents => simp [collecting, Collecting.stance] at h
    | waiting changeEvents => simp [collecting, Collecting.receiveToken, Collecting.weight]
    | finished result => simp [collecting, Collecting.stance] at h
  busy state h := by cases state <;> simp [collecting, Collecting.stance] at h
  reading_others state next _ h := absurd h (no_others state next)
  finished_others state next _ h := absurd h (no_others state next)
  leaves message := ⟨.waiting [], .refl, rfl⟩

variable {on : HandingOn}

/-- The steps that are left for the task, without what it takes. -/
def StreamingTask.weight (on : HandingOn) (unpaired : List ChangeEvent) : StreamingTask → Nat
  | .reading => 2 * (on.hydrated unpaired).length + 4
  | .forwarding _ => 2 * (on.hydrated unpaired).length + 6
  | .hydrating => 2 * (on.hydrated unpaired).length + 3
  | .forwardingRest assets => 2 * assets.length + 2
  | .waiting => 1
  | .returned _ | .aborted => 0

def Downstream.weight : Downstream → Nat
  | .running => 1
  | .returned | .failed => 0

/-- The same for the task and what it hands assets to. -/
def Streaming.weight (on : HandingOn) (s : Streaming) : Nat :=
  s.task.weight on s.unpairedAssetEvents + s.assets.length + s.downstream.weight

theorem weight_pos {s : Streaming} (h : s.stance ≠ .finished) :
    0 < s.task.weight on s.unpairedAssetEvents := by
  cases htask : s.task <;> simp [Streaming.stance, htask, StreamingTask.weight] at h ⊢

theorem other_lighter {s s' : Streaming} (h : on.Other s s') : s'.weight on < s.weight on := by
  cases h with
  | forward htask _ _ =>
      simp only [Streaming.weight, htask, StreamingTask.weight, List.length_append,
        List.length_singleton]
      omega
  | forwardClosed htask _ => simp [Streaming.weight, htask, StreamingTask.weight]
  | hydrate htask => simp [Streaming.weight, htask, StreamingTask.weight]
  | forwardRest htask _ _ =>
      simp only [Streaming.weight, htask, StreamingTask.weight, List.length_append,
        List.length_cons, List.length_nil]
      omega
  | forwardRestClosed htask _ => simp [Streaming.weight, htask, StreamingTask.weight]
  | applyDeltas htask => simp [Streaming.weight, htask, StreamingTask.weight]
  | download _ hassets => simp [Streaming.weight, hassets]
  | downstreamReturns hrunning =>
      simp only [Streaming.weight, Downstream.weight, hrunning, List.length_nil]
      omega
  | downstreamFails hrunning =>
      simp only [Streaming.weight, Downstream.weight, hrunning, List.length_nil]
      omega
  | abort hfailed hstance =>
      have hpos := @weight_pos on _ hstance
      have hnone : StreamingTask.aborted.weight on s.unpairedAssetEvents = 0 := rfl
      simp only [Streaming.weight, hnone]
      omega

theorem busy_other {s : Streaming} (h : s.stance = .busy) : ∃ s', on.Other s s' := by
  have hhandOn (hreached : s.downstream = .running → s.assets.length < on.capacity →
      ∃ s', on.Other s s') (hclosed : s.downstream ≠ .running → ∃ s', on.Other s s') :
      ∃ s', on.Other s s' := by
    by_cases hrunning : s.downstream = .running
    · by_cases hroom : s.assets.length < on.capacity
      · exact hreached hrunning hroom
      · exact ⟨_, .downstreamReturns hrunning⟩
    · exact hclosed hrunning
  cases htask : s.task with
  | forwarding asset =>
      exact hhandOn (fun hrunning hroom => ⟨_, .forward htask hrunning hroom⟩)
        (fun hclosed => ⟨_, .forwardClosed htask hclosed⟩)
  | hydrating => exact ⟨_, .hydrate htask⟩
  | forwardingRest assets =>
      cases assets with
      | nil => exact ⟨_, .applyDeltas htask⟩
      | cons asset rest =>
          exact hhandOn (fun hrunning hroom => ⟨_, .forwardRest htask hrunning hroom⟩)
            (fun hclosed => ⟨_, .forwardRestClosed htask hclosed⟩)
  | reading | waiting | returned | aborted => simp [Streaming.stance, htask] at h

/-- The steps around a task that reads leave it reading, or abort it. -/
theorem reading_other {s s' : Streaming} (hreading : s.stance = .reading) (h : on.Other s s') :
    s'.stance = .reading ∨ s'.stance = .finished := by
  cases h with
  | forward htask _ _ => simp [Streaming.stance, htask] at hreading
  | forwardClosed htask _ => simp [Streaming.stance, htask] at hreading
  | hydrate htask => simp [Streaming.stance, htask] at hreading
  | forwardRest htask _ _ => simp [Streaming.stance, htask] at hreading
  | forwardRestClosed htask _ => simp [Streaming.stance, htask] at hreading
  | applyDeltas htask => simp [Streaming.stance, htask] at hreading
  | download _ _ => exact .inl hreading
  | downstreamReturns _ => exact .inl hreading
  | downstreamFails _ => exact .inl hreading
  | abort _ _ => exact .inr rfl

theorem finished_other {s s' : Streaming} (hfinished : s.stance = .finished)
    (h : on.Other s s') : s'.stance = .finished := by
  cases h with
  | forward htask _ _ => simp [Streaming.stance, htask] at hfinished
  | forwardClosed _ _ => rfl
  | hydrate htask => simp [Streaming.stance, htask] at hfinished
  | forwardRest htask _ _ => simp [Streaming.stance, htask] at hfinished
  | forwardRestClosed _ _ => rfl
  | applyDeltas htask => simp [Streaming.stance, htask] at hfinished
  | download _ _ => exact hfinished
  | downstreamReturns _ => exact hfinished
  | downstreamFails _ => exact hfinished
  | abort _ _ => rfl

/-- The assets that are left are handed on as long as they are taken. -/
theorem forwardsRest (assets : List PhotoAsset) {s : Streaming}
    (htask : s.task = .forwardingRest assets) (hrunning : s.downstream = .running)
    (hassets : s.assets = []) :
    ∃ s', Relation.ReflTransGen on.Other s s' ∧ s'.stance = .waiting := by
  induction assets generalizing s with
  | nil => exact ⟨_, .single (.applyDeltas htask), rfl⟩
  | cons asset rest ih =>
      have hroom : s.assets.length < on.capacity := by
        simp only [hassets, List.length_nil, HandingOn.capacity]
        omega
      obtain ⟨s', hrun, hwaiting⟩ := ih (s := { s with task := .forwardingRest rest, assets := [] })
        rfl hrunning rfl
      refine ⟨s', .head (.forwardRest htask hrunning hroom) (.head ?_ hrun), hwaiting⟩
      exact @HandingOn.Other.download on _ asset _ hrunning (by simp [hassets])

def streamingLaws (on : HandingOn) : (streaming on).Laws where
  weight := Streaming.weight on
  start_reading := rfl
  others_lighter _ _ h := other_lighter h
  ended_lighter s h := by
    cases htask : s.task with
    | reading =>
        simp only [streaming, Streaming.ended, Streaming.weight, htask, StreamingTask.weight]
        omega
    | _ => simp [streaming, Streaming.stance, htask] at h
  receive_lighter s token h := by
    cases htask : s.task with
    | waiting =>
        simp only [streaming, Streaming.receiveToken, Streaming.weight, htask,
          StreamingTask.weight]
        omega
    | _ => simp [streaming, Streaming.stance, htask] at h
  busy _ h := busy_other h
  reading_others _ _ hreading h := reading_other hreading h
  finished_others _ _ hfinished h := finished_other hfinished h
  leaves message := by
    obtain ⟨s, hrun, hwaiting⟩ := @forwardsRest on (on.hydrated [])
      (s := ⟨.forwardingRest (on.hydrated []), [], [], [], [], .running⟩) rfl rfl rfl
    exact ⟨s, .head (.hydrate (by rfl)) hrun, hwaiting⟩

/-- **Reading a feed comes to an end, whenever shutdown is requested, exactly if it has at most
201 messages.** -/
theorem changesStream_finishes (host : Host) (drain : DrainOrder) (on : HandingOn)
    (initialToken : String) (feed : Feed) :
    (collecting.Finishes host drain initialToken feed ↔
      (feed.messages host drain .new).length ≤ 201) ∧
    ((streaming on).Finishes host drain initialToken feed ↔
      (feed.messages host drain .new).length ≤ 201) :=
  ⟨finishes_iff collectingLaws initialToken feed,
    finishes_iff (streamingLaws on) initialToken feed⟩

/-! ## a feed that is too long -/

def gone : Record := ⟨⟨"a", "", .null⟩, some true⟩

/-- One page, on which 202 records are gone. -/
def longFeed : Feed := .last (List.replicate 202 gone) "t1"

theorem processRecords_gone (buffer : DeltaRecordBuffer) (n : Nat) :
    buffer.processRecords plainHost (List.replicate n gone) =
      (buffer, List.replicate n (.new "a" none .hardDeleted)) := by
  induction n with
  | zero => rfl
  | succ n ih =>
      have hgone : buffer.processRecord plainHost gone =
          (buffer, [.new "a" none .hardDeleted]) := by rfl
      simp [List.replicate_succ, DeltaRecordBuffer.processRecords, hgone, ih]

/-- The channel is full before the caller reads from it. -/
theorem longFeed_blocks : ¬collecting.Finishes plainHost inOrder "t0" longFeed := by
  have hlength : (longFeed.messages plainHost inOrder .new).length = 202 := by
    rw [longFeed, Feed.messages, processRecords_gone, List.length_append, List.length_map,
      List.length_replicate]
    rfl
  rw [finishes_iff collectingLaws, hlength]
  simp [channelCapacity]

end Kei.Changes
