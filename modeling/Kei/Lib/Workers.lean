import Mathlib.Data.List.Perm.Basic

/-!
# Kei.Lib.Workers

Items that are worked on, a bounded number of them at once, until someone says
stop.

Items start in their order while there is room.  They finish in any order, and
whoever consumes a finished item may say stop, as may anyone outside.  After
that no item is started: the next one that would be is refused, and with it all
that still wait.  Nothing else gets lost.
-/

namespace Workers

variable {σ τ ρ : Type}

structure Pool (σ τ ρ : Type) where
  consumer : σ
  waiting : List τ
  running : List τ
  finished : List (τ × ρ)
  stopped : Bool
  /-- No item is taken any more. -/
  ended : Bool

inductive Event (ρ : Type) where
  /-- Take the next item. -/
  | start
  /-- The running item at this place finishes. -/
  | finish (index : Nat) (result : ρ)
  /-- Someone outside says stop. -/
  | stop

structure Rules (σ τ ρ : Type) where
  capacity : Nat
  /-- Consume a finished item, and say whether to stop. -/
  consume : σ → τ → ρ → σ × Bool

/-- Nothing has started. -/
def Pool.new (consumer : σ) (items : List τ) : Pool σ τ ρ :=
  ⟨consumer, items, [], [], false, false⟩

variable (rules : Rules σ τ ρ)

def Pool.hasRoom (pool : Pool σ τ ρ) : Bool :=
  !pool.ended && pool.running.length < rules.capacity

def Pool.start (pool : Pool σ τ ρ) : Pool σ τ ρ :=
  match pool.waiting with
  | [] => { pool with ended := true }
  | item :: waiting =>
      if pool.stopped then { pool with ended := true }
      else { pool with waiting := waiting, running := pool.running ++ [item] }

def Pool.finish (pool : Pool σ τ ρ) (index : Nat) (result : ρ) : Pool σ τ ρ :=
  match pool.running[index]? with
  | none => pool
  | some item =>
      let (consumer, stop) := rules.consume pool.consumer item result
      { pool with
        consumer := consumer
        running := pool.running.eraseIdx index
        finished := pool.finished ++ [(item, result)]
        stopped := pool.stopped || stop }

/-- One event.  Room is filled before a finished item is looked at. -/
def Pool.step (pool : Pool σ τ ρ) : Event ρ → Pool σ τ ρ
  | .start => if pool.hasRoom rules then pool.start else pool
  | .finish index result =>
      if pool.hasRoom rules && !pool.waiting.isEmpty then pool else pool.finish rules index result
  | .stop => { pool with stopped := true }

def Pool.run (pool : Pool σ τ ρ) (events : List (Event ρ)) : Pool σ τ ρ :=
  events.foldl (Pool.step rules) pool

/-- Nothing runs and nothing will start. -/
def Pool.isOver (pool : Pool σ τ ρ) : Bool :=
  pool.running.isEmpty && (pool.ended || pool.waiting.isEmpty)

/-- The event is the start of an item that is refused. -/
def Pool.Refuses (pool : Pool σ τ ρ) : Event ρ → Prop
  | .start => pool.hasRoom rules ∧ pool.stopped ∧ pool.waiting ≠ []
  | _ => False

/-- No start is refused. -/
def Pool.Admits : Pool σ τ ρ → List (Event ρ) → Prop
  | _, [] => True
  | pool, event :: events => ¬pool.Refuses rules event ∧ (pool.step rules event).Admits events

variable {rules} {pool : Pool σ τ ρ}

/-! ## where the items are -/

/-- The items, wherever they are. -/
def Pool.items (pool : Pool σ τ ρ) : List τ :=
  pool.finished.map (·.1) ++ pool.running ++ pool.waiting

theorem items_start : pool.start.items = pool.items := by
  unfold Pool.start Pool.items
  cases hwaiting : pool.waiting with
  | nil => simp
  | cons item waiting => by_cases hstopped : pool.stopped <;> simp [hstopped]

theorem items_finish (index : Nat) (result : ρ) :
    (pool.finish rules index result).items.Perm pool.items := by
  unfold Pool.finish
  cases hitem : pool.running[index]? with
  | none => exact .rfl
  | some item =>
      obtain ⟨hlt, hget⟩ := List.getElem?_eq_some_iff.1 hitem
      have herase : (item :: pool.running.eraseIdx index).Perm pool.running := by
        rw [← hget]
        exact List.getElem_cons_eraseIdx_perm hlt
      simp only [Pool.items, List.map_append, List.map_cons, List.map_nil, List.append_assoc,
        List.cons_append, List.nil_append]
      exact (herase.append_right _).append_left _

theorem items_step (event : Event ρ) : (pool.step rules event).items.Perm pool.items := by
  cases event with
  | start =>
      rw [Pool.step]
      by_cases hroom : pool.hasRoom rules
      · rw [if_pos hroom, items_start]
      · rw [if_neg hroom]
  | finish index result =>
      rw [Pool.step]
      by_cases hroom : pool.hasRoom rules && !pool.waiting.isEmpty
      · rw [if_pos hroom]
      · rw [if_neg hroom]
        exact items_finish index result
  | stop => exact .rfl

theorem items_run (rules : Rules σ τ ρ) (pool : Pool σ τ ρ) (events : List (Event ρ)) :
    (pool.run rules events).items.Perm pool.items := by
  induction events generalizing pool with
  | nil => exact .rfl
  | cons event events ih => exact (ih _).trans (items_step event)

variable {events : List (Event ρ)}

/-- **Where the items are.**  When the work is over, an item has finished, or it still waits. -/
theorem finished_perm {consumer : σ} {items : List τ}
    (hover : ((Pool.new consumer items).run rules events).isOver) :
    (((Pool.new consumer items).run rules events).finished.map (·.1) ++
      ((Pool.new consumer items).run rules events).waiting).Perm items := by
  have hitems := items_run rules (Pool.new consumer items) events
  have hrunning : ((Pool.new consumer items).run rules events).running = [] := by
    simp only [Pool.isOver, Bool.and_eq_true, List.isEmpty_iff] at hover
    exact hover.1
  simp only [Pool.items, hrunning, List.append_nil] at hitems
  simpa [Pool.new] using hitems

/-! ## refused items -/

theorem ended_step (rules : Rules σ τ ρ) (event : Event ρ) (hended : pool.ended) :
    (pool.step rules event).ended ∧ (pool.step rules event).waiting = pool.waiting := by
  have hroom : pool.hasRoom rules = false := by simp [Pool.hasRoom, hended]
  cases event with
  | start => simp [Pool.step, hroom, hended]
  | finish index result =>
      cases hitem : pool.running[index]? <;> simp [Pool.step, hroom, Pool.finish, hitem, hended]
  | stop => simp [Pool.step, hended]

theorem ended_run (rules : Rules σ τ ρ) (events : List (Event ρ)) (hended : pool.ended) :
    (pool.run rules events).waiting = pool.waiting := by
  induction events generalizing pool with
  | nil => rfl
  | cons event events ih =>
      obtain ⟨hstill, hwaiting⟩ := ended_step rules event hended
      exact (ih hstill).trans hwaiting

theorem Pool.Refuses.ended {event : Event ρ} (h : pool.Refuses rules event) :
    (pool.step rules event).ended ∧ (pool.step rules event).waiting ≠ [] := by
  cases event with
  | start =>
      obtain ⟨hroom, hstopped, hwaiting⟩ := h
      cases hitems : pool.waiting with
      | nil => exact absurd hitems hwaiting
      | cons item waiting => simp [Pool.step, hroom, Pool.start, hstopped, hitems]
  | finish index result => exact h.elim
  | stop => exact h.elim

/-- A step that refuses nothing ends the work only when nothing waits. -/
theorem ended_step_of_admits {event : Event ρ} (hended : pool.ended → pool.waiting = [])
    (h : ¬pool.Refuses rules event) :
    (pool.step rules event).ended → (pool.step rules event).waiting = [] := by
  by_cases hbefore : pool.ended
  · intro _
    rw [(ended_step rules event hbefore).2]
    exact hended hbefore
  · cases event with
    | start =>
        simp only [Pool.Refuses, not_and] at h
        cases hroom : pool.hasRoom rules <;> cases hitems : pool.waiting <;>
          cases hstopped : pool.stopped <;> simp_all [Pool.step, Pool.start]
    | finish index result =>
        cases hitem : pool.running[index]? <;>
          cases hfull : pool.hasRoom rules && !pool.waiting.isEmpty <;>
            simp [Pool.step, hfull, Pool.finish, hitem, hbefore]
    | stop => simp [Pool.step, hbefore]

theorem admits_iff_of_ended (hended : pool.ended → pool.waiting = [])
    (hover : (pool.run rules events).isOver) :
    pool.Admits rules events ↔ (pool.run rules events).waiting = [] := by
  induction events generalizing pool with
  | nil =>
      simp only [Pool.run, List.foldl_nil, Pool.isOver, Bool.and_eq_true, Bool.or_eq_true,
        List.isEmpty_iff] at hover
      have hwaiting : pool.waiting = [] := hover.2.elim hended id
      simp [Pool.Admits, Pool.run, hwaiting]
  | cons event events ih =>
      by_cases hrefuses : pool.Refuses rules event
      · obtain ⟨hstill, hwaiting⟩ := hrefuses.ended
        have hrest : (pool.run rules (event :: events)).waiting ≠ [] := by
          have hrun := ended_run rules events hstill
          exact fun hnil => hwaiting (hrun.symm.trans hnil)
        simp [Pool.Admits, hrefuses, hrest]
      · have hrest := ih (ended_step_of_admits hended hrefuses) hover
        rw [Pool.Admits, and_iff_right hrefuses]
        exact hrest

/-- **All items finish** exactly if no start is refused. -/
theorem admits_iff {consumer : σ} {items : List τ}
    (hover : ((Pool.new consumer items).run rules events).isOver) :
    (Pool.new consumer items).Admits rules events ↔
      ((Pool.new consumer items).run rules events).waiting = [] :=
  admits_iff_of_ended (by simp [Pool.new]) hover

/-! ## what the consumer makes of the items -/

/-- The consumer after these items. -/
def Rules.consumed (rules : Rules σ τ ρ) (consumer : σ) (finished : List (τ × ρ)) : σ :=
  finished.foldl (fun consumer e => (rules.consume consumer e.1 e.2).1) consumer

theorem consumer_step {consumer : σ} (event : Event ρ)
    (h : pool.consumer = rules.consumed consumer pool.finished) :
    (pool.step rules event).consumer =
      rules.consumed consumer (pool.step rules event).finished := by
  cases event with
  | start =>
      rw [Pool.step, Pool.start]
      cases hroom : pool.hasRoom rules <;> cases hitems : pool.waiting <;>
        cases hstopped : pool.stopped <;> simp [h]
  | finish index result =>
      rw [Pool.step, Pool.finish]
      cases hitem : pool.running[index]? <;>
        cases hfull : pool.hasRoom rules && !pool.waiting.isEmpty <;>
          simp [h, Rules.consumed]
  | stop => exact h

/-- The consumer has seen the finished items, in the order in which they finished. -/
theorem consumer_run (consumer : σ) (items : List τ) (events : List (Event ρ)) :
    ((Pool.new consumer items).run rules events).consumer =
      rules.consumed consumer ((Pool.new consumer items).run rules events).finished := by
  have hrun : ∀ pool : Pool σ τ ρ, pool.consumer = rules.consumed consumer pool.finished →
      (pool.run rules events).consumer =
        rules.consumed consumer (pool.run rules events).finished := by
    induction events with
    | nil => exact fun pool h => h
    | cons event events ih => exact fun pool h => ih _ (consumer_step event h)
  exact hrun _ rfl

end Workers
