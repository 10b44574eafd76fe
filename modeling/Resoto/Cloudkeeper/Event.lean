import Resoto.Python.Dict
import Mathlib.Algebra.Order.Ring.Rat
import Mathlib.Tactic.Linarith
import Mathlib.Tactic.Ring

/-!
# The event registry of cloudkeeper

`_events` maps an event type to its listeners and their registrations, in registration
order. `add_event_listener` and `remove_event_listener` change it under the write lock;
`dispatch_event` tests for an entry without the lock, copies it under the read lock, starts a
thread per listener and joins the blocking ones. A run is any interleaving of these steps
(`EventAction`), for any number of dispatches at once.
-/

namespace Resoto

namespace Cloudkeeper

/-- `EventType`. -/
inductive EventType where
  | startup | shutdown | startCollect | collectBegin | collectFinish
  | cleanupBegin | cleanupFinish | processBegin | processFinish | generateMetrics
deriving DecidableEq, Repr

/-- `event_type.value`. -/
def EventType.value : EventType → String
  | .startup => "startup"
  | .shutdown => "shutdown"
  | .startCollect => "start_collect"
  | .collectBegin => "collect_begin"
  | .collectFinish => "collect_finish"
  | .cleanupBegin => "cleanup_begin"
  | .cleanupFinish => "cleanup_finish"
  | .processBegin => "process_begin"
  | .processFinish => "process_finish"
  | .generateMetrics => "generate_metrics"

/-- A listener's registration, `{'blocking': blocking, 'timeout': timeout}`. -/
structure ListenerInfo where
  blocking : Bool
  timeout : Int
deriving DecidableEq, Repr

/-- `_events`: the listeners of each event type with their registrations. -/
abbrev Events (L : Type) := PyDict EventType (PyDict L ListenerInfo)

section Registry

variable {L : Type} [DecidableEq L]

/-- `_events[event_type]` where it has an entry; no listeners where it has none. -/
def listenersOf (events : Events L) (eventType : EventType) : PyDict L ListenerInfo :=
  (events.get? eventType).getD ∅

/-- `event_listener_registered(event_type, listener)`. -/
def eventListenerRegistered (events : Events L) (eventType : EventType) (listener : L) : Bool :=
  decide (eventType ∈ events.keys) && decide (listener ∈ (listenersOf events eventType).keys)

/-- `add_event_listener(event_type, listener, blocking, timeout)`: whether it registered the
listener, and `_events` after it; `eventTimeout` is `ArgumentParser.args.event_timeout`. -/
def addEventListener (callable : L → Bool) (eventTimeout : Int) (events : Events L)
    (eventType : EventType) (listener : L) (blocking : Bool := false)
    (timeout : Option Int := none) : Bool × Events L :=
  if !callable listener then (false, events)
  else
    let timeout := timeout.getD eventTimeout
    if !eventListenerRegistered events eventType listener then
      (true, events.insert eventType
        ((listenersOf events eventType).insert listener ⟨blocking, timeout⟩))
    else (false, events)

/-- `remove_event_listener(event_type, listener)`: whether it removed the listener, and
`_events` after it. -/
def removeEventListener (events : Events L) (eventType : EventType) (listener : L) :
    Bool × Events L :=
  if eventListenerRegistered events eventType listener then
    let listeners := (listenersOf events eventType).erase listener
    let events := events.insert eventType listeners
    (true, if listeners.items.length = 0 then events.erase eventType else events)
  else (false, events)

/-- The test that starts `dispatch_event`, made without the lock: whether it goes on. -/
def dispatchTest (events : Events L) (eventType : EventType) : Bool :=
  decide (eventType ∈ events.keys)

/-- `dict(_events[event.event_type])`: the copy of the listeners, and `_events` after the read,
which on the `defaultdict` adds an empty entry for a missing event type. -/
def dispatchSnapshot (events : Events L) (eventType : EventType) :
    PyDict L ListenerInfo × Events L :=
  match events.get? eventType with
  | some listeners => (listeners, events)
  | none => (∅, events.insert eventType ∅)

/-- The name `dispatch_event` gives a listener's thread; `name` is a listener's `__name__`. -/
def threadName (name : L → Option String) (eventType : EventType) (listener : L) : String :=
  eventType.value ++ "_event-" ++ (name listener).getD "anonymous"

/-- One iteration of the start loop of `dispatch_event`: a thread whose start raises
(`starts` is false) is logged and skipped, a started one is kept to join when blocking. -/
def startThread (name : L → Option String) (starts : L → Bool) (eventType : EventType)
    (blocking : Bool) (acc : List String × List (L × ListenerInfo)) (entry : L × ListenerInfo) :
    List String × List (L × ListenerInfo) :=
  (if starts entry.1 then acc.1 ++ [threadName name eventType entry.1] else acc.1,
    if blocking || entry.2.blocking then acc.2 ++ [entry] else acc.2)

/-- The loop of `dispatch_event` over the copy of the listeners. -/
def startThreads (name : L → Option String) (starts : L → Bool) (eventType : EventType)
    (blocking : Bool) (listeners : PyDict L ListenerInfo) :
    List String × List (L × ListenerInfo) :=
  listeners.items.foldl (startThread name starts eventType blocking) ([], [])

/-- The join loop of `dispatch_event` from the time `now`: the time it ends at. A thread ends
at `finish listener`, and joining one that did not start raises. -/
def joinThreads (starts : L → Bool) (finish : L → ℚ) (startTime : ℚ) :
    ℚ → List (L × ListenerInfo) → Except PyError ℚ
  | now, [] => pure now
  | now, (listener, info) :: threads =>
    if !starts listener then .error (.exception "cannot join thread before it is started")
    else
      let timeout := startTime + info.timeout - now
      let timeout := if timeout < 1 then 1 else timeout
      joinThreads starts finish startTime (min (max now (finish listener)) (now + timeout)) threads

/-- `dispatch_event(event, blocking)` started at `startTime`: `_events` after it, the names of
the threads it started and the time it returns at. -/
def dispatchEvent (name : L → Option String) (starts : L → Bool) (finish : L → ℚ)
    (startTime : ℚ) (events : Events L) (eventType : EventType) (blocking : Bool := false) :
    Events L × Except PyError (List String × ℚ) :=
  if !dispatchTest events eventType then (events, pure ([], startTime))
  else
    let (listeners, events) := dispatchSnapshot events eventType
    let (started, threads) := startThreads name starts eventType blocking listeners
    (events, (started, ·) <$> joinThreads starts finish startTime startTime threads)

/-! ## Interleaved runs -/

/-- An atomic step on `_events`: a registration, a removal, or the test or the copy of a
dispatch `d`. -/
inductive EventAction (L : Type) where
  | add (eventType : EventType) (listener : L) (blocking : Bool) (timeout : Option Int)
  | remove (eventType : EventType) (listener : L)
  | test (d : Nat) (eventType : EventType)
  | snapshot (d : Nat)

/-- `_events`, and the dispatches between their test and their copy. -/
structure EventState (L : Type) where
  events : Events L
  testing : List (Nat × EventType)

variable (callable : L → Bool) (eventTimeout : Int)

/-- One atomic step. -/
def EventState.step (s : EventState L) : EventAction L → EventState L
  | .add eventType listener blocking timeout =>
    { s with events :=
      (addEventListener callable eventTimeout s.events eventType listener blocking timeout).2 }
  | .remove eventType listener =>
    { s with events := (removeEventListener s.events eventType listener).2 }
  | .test d eventType =>
    if dispatchTest s.events eventType then { s with testing := (d, eventType) :: s.testing } else s
  | .snapshot d =>
    match s.testing.lookup d with
    | some eventType =>
      { events := (dispatchSnapshot s.events eventType).2, testing := s.testing.filter (·.1 != d) }
    | none => s

/-- A run: the steps in the order they interleave. -/
def EventState.run (s : EventState L) (actions : List (EventAction L)) : EventState L :=
  actions.foldl (EventState.step callable eventTimeout) s

/-- The registrations of each event type, in registration order. -/
abbrev Registrations (L : Type) := EventType → List (L × ListenerInfo)

/-- The table of registrations `_events` holds. -/
def registrations (events : Events L) : Registrations L :=
  fun eventType => (listenersOf events eventType).items

/-- What a step does to the table of registrations. -/
def Registrations.step (R : Registrations L) : EventAction L → Registrations L
  | .add eventType listener blocking timeout =>
    if callable listener ∧ listener ∉ (R eventType).map Prod.fst then
      Function.update R eventType
        (R eventType ++ [(listener, ⟨blocking, timeout.getD eventTimeout⟩)])
    else R
  | .remove eventType listener =>
    Function.update R eventType ((R eventType).filter (·.1 != listener))
  | .test _ _ | .snapshot _ => R

/-- The table of registrations after a run. -/
def Registrations.run (R : Registrations L) (actions : List (EventAction L)) : Registrations L :=
  actions.foldl (Registrations.step callable eventTimeout) R

/-- A step that adds no empty entry. -/
def EventState.KeepsEntries (s : EventState L) : EventAction L → Prop
  | .snapshot d => ∀ t, s.testing.lookup d = some t → t ∈ s.events.keys
  | _ => True

/-- Each step of a run meets `P` on the state it is taken in. -/
def EventState.RunAll (P : EventState L → EventAction L → Prop) :
    EventState L → List (EventAction L) → Prop
  | _, [] => True
  | s, a :: as => P s a ∧ EventState.RunAll P (s.step callable eventTimeout a) as

variable {callable eventTimeout}

/-! ### Reading and writing an entry -/

omit [DecidableEq L] in
@[simp] theorem listenersOf_empty (eventType : EventType) :
    listenersOf (∅ : Events L) eventType = ∅ := rfl

omit [DecidableEq L] in
theorem listenersOf_insert (events : Events L) (t t' : EventType) (ls : PyDict L ListenerInfo) :
    listenersOf (events.insert t ls) t' = if t = t' then ls else listenersOf events t' := by
  rw [listenersOf, PyDict.get?_insert]
  split <;> rfl

omit [DecidableEq L] in
theorem listenersOf_erase (events : Events L) (t t' : EventType) :
    listenersOf (events.erase t) t' = if t = t' then ∅ else listenersOf events t' := by
  rw [listenersOf, PyDict.get?_erase]
  split <;> rfl

theorem eventListenerRegistered_eq (events : Events L) (t : EventType) (l : L) :
    eventListenerRegistered events t l = decide (l ∈ (listenersOf events t).keys) := by
  unfold eventListenerRegistered
  by_cases ht : t ∈ events.keys
  · simp [ht]
  · simp [ht, listenersOf, PyDict.get?_eq_none.mpr ht, PyDict.keys]

omit [DecidableEq L] in
theorem registrations_insert (events : Events L) (t : EventType) (ls : PyDict L ListenerInfo) :
    registrations (events.insert t ls) = Function.update (registrations events) t ls.items := by
  funext t'
  rw [registrations, listenersOf_insert, Function.update_apply]
  by_cases h : t' = t
  · subst h; simp
  · simp [h, Ne.symm h, registrations]

/-! ### Each step refines its step on the registrations -/

theorem registrations_add (events : Events L) (t : EventType) (l : L) (b : Bool)
    (timeout : Option Int) :
    registrations (addEventListener callable eventTimeout events t l b timeout).2 =
      (registrations events).step callable eventTimeout (.add t l b timeout) := by
  have hkeys : ((registrations events t).map Prod.fst) = (listenersOf events t).keys := rfl
  unfold addEventListener Registrations.step
  by_cases hc : callable l
  · by_cases hr : l ∈ (listenersOf events t).keys
    · simp [hc, hkeys, hr, eventListenerRegistered_eq]
    · simp only [hc, hkeys, hr, eventListenerRegistered_eq, decide_False, Bool.not_false,
        Bool.not_true, Bool.false_eq_true, if_true, if_false, not_false_eq_true, and_self]
      rw [registrations_insert, PyDict.items_insert_of_not_mem hr]
      rfl
  · simp [hc]

theorem registrations_remove (events : Events L) (t : EventType) (l : L) :
    registrations (removeEventListener events t l).2 =
      (registrations events).step callable eventTimeout (.remove t l) := by
  have herase : ((listenersOf events t).erase l).items = (registrations events t).filter (·.1 != l) := rfl
  unfold removeEventListener Registrations.step
  rw [eventListenerRegistered_eq]
  by_cases hr : l ∈ (listenersOf events t).keys
  · simp only [hr, decide_True, if_true]
    split
    · rename_i hlen
      funext t'
      rw [registrations, listenersOf_erase, listenersOf_insert, Function.update_apply]
      by_cases h : t' = t
      · subst h
        simp only [if_true]
        rw [← herase, List.eq_nil_of_length_eq_zero hlen]
        rfl
      · simp [h, Ne.symm h, registrations]
    · rw [registrations_insert, herase]
  · have hfilter : (registrations events t).filter (·.1 != l) = registrations events t :=
      List.filter_eq_self.mpr fun e he => bne_iff_ne.mpr fun hl =>
        hr (hl ▸ List.mem_map_of_mem Prod.fst he)
    simp only [hr, decide_False, Bool.false_eq_true, if_false, hfilter, Function.update_eq_self]

omit [DecidableEq L] in
theorem registrations_dispatchSnapshot (events : Events L) (t : EventType) :
    registrations (dispatchSnapshot events t).2 = registrations events := by
  unfold dispatchSnapshot
  split
  · rfl
  · rename_i h
    rw [registrations_insert]
    funext t'
    by_cases ht : t' = t
    · subst ht
      simp [registrations, listenersOf, h]
    · simp [ht]

omit [DecidableEq L] in
/-- The copy of a dispatch lists the registrations of its event type. -/
theorem dispatchSnapshot_items (events : Events L) (t : EventType) :
    (dispatchSnapshot events t).1.items = registrations events t := by
  unfold dispatchSnapshot registrations listenersOf
  split <;> rename_i h <;> simp [h]

theorem registrations_step (s : EventState L) (a : EventAction L) :
    registrations (s.step callable eventTimeout a).events =
      (registrations s.events).step callable eventTimeout a := by
  cases a with
  | add t l b timeout => exact registrations_add s.events t l b timeout
  | remove t l => exact registrations_remove s.events t l
  | test d t => unfold EventState.step; dsimp only; split <;> rfl
  | snapshot d =>
    unfold EventState.step
    dsimp only
    split
    · exact registrations_dispatchSnapshot s.events _
    · rfl

theorem registrations_run (actions : List (EventAction L)) : ∀ s : EventState L,
    registrations (s.run callable eventTimeout actions).events =
      (registrations s.events).run callable eventTimeout actions := by
  induction actions with
  | nil => exact fun _ => rfl
  | cons a as ih =>
    intro s
    rw [EventState.run, List.foldl_cons, ← EventState.run, ih, registrations_step]
    rfl

/-- **The registry refines a table of registrations, across every interleaving**, and a
dispatch copies its listeners from that table. -/
theorem run_registrations (s : EventState L) (actions : List (EventAction L)) :
    registrations (s.run callable eventTimeout actions).events =
      (registrations s.events).run callable eventTimeout actions ∧
    ∀ t, (dispatchSnapshot (s.run callable eventTimeout actions).events t).1.items =
      (registrations s.events).run callable eventTimeout actions t :=
  ⟨registrations_run actions s, fun t => by rw [dispatchSnapshot_items, registrations_run]⟩

/-! ### No registration is lost -/

/-- Whether a step removes the listener `l` from the event type `t`. -/
def EventAction.removes (t : EventType) (l : L) : EventAction L → Bool
  | .remove t' l' => decide (t' = t ∧ l' = l)
  | .add .. | .test .. | .snapshot _ => false

/-- A registration the table holds stays through a step that does not remove it. -/
theorem Registrations.mem_step {R : Registrations L} {t : EventType} {e : L × ListenerInfo}
    (he : e ∈ R t) {a : EventAction L} (ha : a.removes t e.1 = false) :
    e ∈ R.step callable eventTimeout a t := by
  cases a with
  | add t' l b timeout =>
    unfold Registrations.step
    dsimp only
    split
    · rw [Function.update_apply]
      split
      · rename_i ht
        subst ht
        exact List.mem_append_left _ he
      · exact he
    · exact he
  | remove t' l =>
    unfold Registrations.step
    dsimp only
    rw [Function.update_apply]
    split
    · rename_i ht
      subst ht
      refine List.mem_filter.mpr ⟨he, bne_iff_ne.mpr fun hl => ?_⟩
      simp [EventAction.removes, hl] at ha
    · exact he
  | test _ _ | snapshot _ => exact he

theorem Registrations.mem_run {t : EventType} {e : L × ListenerInfo} :
    ∀ {actions : List (EventAction L)} {R : Registrations L}, e ∈ R t →
      (∀ a ∈ actions, a.removes t e.1 = false) → e ∈ R.run callable eventTimeout actions t
  | [], _, he, _ => he
  | a :: as, R, he, ha => by
    rw [Registrations.run, List.foldl_cons]
    exact Registrations.mem_run (Registrations.mem_step he (ha a (List.mem_cons_self _ _)))
      fun a' h => ha a' (List.mem_cons_of_mem _ h)

/-- **No registration is lost, across every interleaving.** A registration stays through every
run that does not remove it, and a later dispatch of its event type copies it. -/
theorem run_keeps_registration (s : EventState L) (actions : List (EventAction L))
    {t : EventType} {e : L × ListenerInfo} (he : e ∈ registrations s.events t)
    (hactions : ∀ a ∈ actions, a.removes t e.1 = false) :
    e ∈ registrations (s.run callable eventTimeout actions).events t ∧
      e ∈ (dispatchSnapshot (s.run callable eventTimeout actions).events t).1.items := by
  have hrun : e ∈ registrations (s.run callable eventTimeout actions).events t := by
    rw [registrations_run]
    exact Registrations.mem_run he hactions
  exact ⟨hrun, by rwa [dispatchSnapshot_items]⟩

/-- `_events` holding the blocking listener `collect` of `startup`. -/
def collectRegistered : EventState String :=
  ⟨PyDict.ofList [(.startup, PyDict.ofList [("collect", ⟨true, 900⟩)])], []⟩

/-- Another listener of `startup` comes and goes while a dispatch copies the listeners. -/
def reportRun : List (EventAction String) :=
  [.add .startup "report" false none, .test 0 .startup, .remove .startup "report", .snapshot 0]

theorem run_keeps_registration_collect :
    ("collect", (⟨true, 900⟩ : ListenerInfo)) ∈ registrations collectRegistered.events .startup ∧
    (∀ a ∈ reportRun, a.removes .startup "collect" = false) ∧
    ("collect", (⟨true, 900⟩ : ListenerInfo)) ∈
        registrations (collectRegistered.run (fun _ => true) 900 reportRun).events .startup ∧
      ("collect", (⟨true, 900⟩ : ListenerInfo)) ∈ (dispatchSnapshot
        (collectRegistered.run (fun _ => true) 900 reportRun).events .startup).1.items :=
  have he : ("collect", (⟨true, 900⟩ : ListenerInfo)) ∈
      registrations collectRegistered.events .startup := by decide
  have ha : ∀ a ∈ reportRun, a.removes .startup "collect" = false := by decide
  ⟨he, ha, run_keeps_registration collectRegistered reportRun he ha⟩

/-! ### Entries without listeners -/

/-- Every event type with an entry has a listener. -/
def NoEmptyEntry (events : Events L) : Prop :=
  ∀ t ∈ events.keys, (listenersOf events t).items ≠ []

omit [DecidableEq L] in
theorem noEmptyEntry_insert {events : Events L} (h : NoEmptyEntry events) (t : EventType)
    {ls : PyDict L ListenerInfo} (hls : ls.items ≠ []) : NoEmptyEntry (events.insert t ls) := by
  intro t' ht'
  rw [listenersOf_insert]
  split
  · exact hls
  · rename_i hne
    exact h t' (((PyDict.mem_keys_insert _ _ _ _).mp ht').resolve_left (Ne.symm hne))

omit [DecidableEq L] in
theorem noEmptyEntry_insert_erase {events : Events L} (h : NoEmptyEntry events) (t : EventType)
    (ls : PyDict L ListenerInfo) : NoEmptyEntry ((events.insert t ls).erase t) := by
  intro t' ht'
  obtain ⟨hne, ht'⟩ := (PyDict.mem_keys_erase _ _ _).mp ht'
  rw [listenersOf_erase, if_neg (Ne.symm hne), listenersOf_insert, if_neg (Ne.symm hne)]
  exact h t' (((PyDict.mem_keys_insert _ _ _ _).mp ht').resolve_left hne)

theorem items_insert_ne_nil (d : PyDict L ListenerInfo) (l : L) (info : ListenerInfo) :
    (d.insert l info).items ≠ [] := fun he => by
  have := PyDict.get?_insert d l l info
  rw [if_pos rfl, PyDict.get?, he] at this
  cases this

theorem step_noEmptyEntry {s : EventState L} {a : EventAction L} (hs : NoEmptyEntry s.events)
    (ha : s.KeepsEntries a) : NoEmptyEntry (s.step callable eventTimeout a).events := by
  cases a with
  | add t l b timeout =>
    show NoEmptyEntry (addEventListener callable eventTimeout s.events t l b timeout).2
    unfold addEventListener
    split
    · exact hs
    · split
      · exact noEmptyEntry_insert hs t (items_insert_ne_nil _ _ _)
      · exact hs
  | remove t l =>
    show NoEmptyEntry (removeEventListener s.events t l).2
    unfold removeEventListener
    split
    · dsimp only
      split
      · exact noEmptyEntry_insert_erase hs t _
      · rename_i hlen
        exact noEmptyEntry_insert hs t fun he => hlen (by rw [he]; rfl)
    · exact hs
  | test d t => unfold EventState.step; dsimp only; split <;> exact hs
  | snapshot d =>
    unfold EventState.step
    dsimp only
    split
    · rename_i t hd
      unfold dispatchSnapshot
      split
      · exact hs
      · rename_i hnone
        exact absurd (ha t hd) (PyDict.get?_eq_none.mp hnone)
    · exact hs

/-- **An entry without listeners comes only from a dispatch that lost the race** between its
unlocked test and its copy. -/
theorem run_noEmptyEntry (s : EventState L) (actions : List (EventAction L))
    (hs : NoEmptyEntry s.events) (hrun : s.RunAll callable eventTimeout EventState.KeepsEntries actions) :
    NoEmptyEntry (s.run callable eventTimeout actions).events := by
  induction actions generalizing s with
  | nil => exact hs
  | cons a as ih => exact ih _ (step_noEmptyEntry hs hrun.1) hrun.2

/-- A run of one listener of `startup`, a dispatch, and the listener's removal. -/
def startupRun : List (EventAction String) :=
  [.add .startup "collect" true none, .test 0 .startup, .snapshot 0, .remove .startup "collect"]

theorem run_noEmptyEntry_startupRun :
    NoEmptyEntry (∅ : Events String) ∧
      (⟨∅, []⟩ : EventState String).RunAll (fun _ => true) 900 EventState.KeepsEntries startupRun ∧
      NoEmptyEntry ((⟨∅, []⟩ : EventState String).run (fun _ => true) 900 startupRun).events :=
  have hs : NoEmptyEntry (∅ : Events String) := fun _ h => absurd h (List.not_mem_nil _)
  have hrun : (⟨∅, []⟩ : EventState String).RunAll (fun _ => true) 900 EventState.KeepsEntries
      startupRun := ⟨trivial, trivial, fun t ht => by cases ht; decide, trivial, trivial⟩
  ⟨hs, hrun, run_noEmptyEntry _ _ hs hrun⟩

/-! ### The threads and the joins of a dispatch -/

omit [DecidableEq L] in
/-- The start loop starts the threads in the copy's order and keeps the blocking ones. -/
theorem foldl_startThread (name : L → Option String) (starts : L → Bool) (t : EventType)
    (blocking : Bool) (items : List (L × ListenerInfo)) :
    ∀ acc : List String × List (L × ListenerInfo),
      items.foldl (startThread name starts t blocking) acc =
        (acc.1 ++ (items.filter (starts ·.1)).map (threadName name t ·.1),
          acc.2 ++ items.filter fun p => blocking || p.2.blocking) := by
  induction items with
  | nil => exact fun acc => by simp
  | cons e es ih =>
    intro acc
    rw [List.foldl_cons, ih]
    unfold startThread
    by_cases hs : starts e.1 <;> by_cases hb : (blocking || e.2.blocking) <;> simp [hs, hb]

/-- The largest timeout of the threads to join, or `0`. -/
def largestTimeout (threads : List (L × ListenerInfo)) : ℚ :=
  threads.foldr (fun p m => max (p.2.timeout : ℚ) m) 0

omit [DecidableEq L] in
theorem largestTimeout_nonneg (threads : List (L × ListenerInfo)) : 0 ≤ largestTimeout threads := by
  induction threads with
  | nil => exact le_rfl
  | cons p ps ih => exact ih.trans (le_max_right _ _)

/-- A join's timeout ends at the later of a second from now and `startTime + timeout`. -/
theorem add_clampedTimeout (startTime now : ℚ) (T : Int) :
    now + (if startTime + T - now < 1 then 1 else startTime + T - now) =
      max (now + 1) (startTime + T) := by
  split_ifs with h
  · exact (max_eq_left (by linarith)).symm
  · rw [max_eq_right (by linarith)]
    ring

/-- A join returns once the thread has ended or the deadline has passed, and by the deadline. -/
theorem join_bounds {now deadline : ℚ} (f : ℚ) (h : now ≤ deadline) :
    now ≤ min (max now f) deadline ∧
      (f ≤ min (max now f) deadline ∨ deadline ≤ min (max now f) deadline) ∧
      min (max now f) deadline ≤ deadline := by
  refine ⟨le_min (le_max_left _ _) h, ?_, min_le_right _ _⟩
  rcases min_choice (max now f) deadline with hm | hm <;> rw [hm]
  exacts [.inl (le_max_right _ _), .inr le_rfl]

omit [DecidableEq L] in
/-- The join loop waits for each thread or its timeout, and at most the largest timeout plus a
second per thread. -/
theorem joinThreads_bounds {starts : L → Bool} {finish : L → ℚ} {startTime : ℚ} :
    ∀ {now tEnd : ℚ} {threads : List (L × ListenerInfo)},
      joinThreads starts finish startTime now threads = .ok tEnd →
      now ≤ tEnd ∧ (∀ p ∈ threads, finish p.1 ≤ tEnd ∨ startTime + p.2.timeout ≤ tEnd) ∧
        tEnd ≤ max now (startTime + largestTimeout threads) + threads.length
  | now, tEnd, [], h => by
    cases Except.ok.inj h
    exact ⟨le_rfl, fun _ h => absurd h (List.not_mem_nil _), by simp⟩
  | now, tEnd, (l, info) :: rest, h => by
    unfold joinThreads at h
    split at h
    · cases h
    · dsimp only at h
      rw [add_clampedTimeout] at h
      set deadline := max (now + 1) (startTime + info.timeout)
      obtain ⟨h1, h2, h3⟩ := joinThreads_bounds h
      obtain ⟨j1, j2, j3⟩ := join_bounds (finish l) (show now ≤ deadline by
        linarith [le_max_left (now + 1) (startTime + info.timeout)])
      have hT : startTime + info.timeout ≤ deadline := le_max_right _ _
      refine ⟨j1.trans h1, List.forall_mem_cons.mpr ⟨?_, h2⟩, ?_⟩
      · rcases j2 with j2 | j2
        exacts [.inl (j2.trans h1), .inr (hT.trans (j2.trans h1))]
      · have hM : (info.timeout : ℚ) ≤ largestTimeout ((l, info) :: rest) ∧
            largestTimeout rest ≤ largestTimeout ((l, info) :: rest) :=
          ⟨le_max_left _ _, le_max_right _ _⟩
        have hB := le_max_right now (startTime + largestTimeout ((l, info) :: rest))
        have hdl : deadline ≤ max now (startTime + largestTimeout ((l, info) :: rest)) + 1 :=
          max_le (by linarith [le_max_left now (startTime + largestTimeout ((l, info) :: rest))])
            (by linarith)
        have hmax : max (min (max now (finish l)) deadline) (startTime + largestTimeout rest) ≤
            max now (startTime + largestTimeout ((l, info) :: rest)) + 1 :=
          max_le (j3.trans hdl) (by linarith)
        simp only [List.length_cons, Nat.cast_add, Nat.cast_one]
        linarith

omit [DecidableEq L] in
/-- **A dispatch waits for its blocking listeners until they end or time out, and no longer**:
at most the largest timeout plus a second per joined listener. -/
theorem dispatchEvent_bounds (name : L → Option String) (starts : L → Bool) (finish : L → ℚ)
    (startTime : ℚ) (events : Events L) (t : EventType) (blocking : Bool)
    {started : List String} {tEnd : ℚ}
    (h : (dispatchEvent name starts finish startTime events t blocking).2 = .ok (started, tEnd)) :
    started = ((registrations events t).filter (starts ·.1)).map (threadName name t ·.1) ∧
      (∀ p ∈ (registrations events t).filter (fun p => blocking || p.2.blocking),
        finish p.1 ≤ tEnd ∨ startTime + p.2.timeout ≤ tEnd) ∧
      tEnd ≤ startTime + largestTimeout ((registrations events t).filter
          (fun p => blocking || p.2.blocking)) +
        ((registrations events t).filter (fun p => blocking || p.2.blocking)).length := by
  unfold dispatchEvent at h
  by_cases ht : dispatchTest events t
  · rw [if_neg (by simp [ht])] at h
    rcases hs : dispatchSnapshot events t with ⟨ls, ev⟩
    have hitems : ls.items = registrations events t := by
      rw [← dispatchSnapshot_items, hs]
    rw [hs] at h
    dsimp only at h
    rw [startThreads, foldl_startThread] at h
    obtain ⟨tEnd', hjoin, hres⟩ := Except.map_eq_ok.mp h
    obtain ⟨rfl, rfl⟩ := Prod.mk.inj hres
    obtain ⟨-, hdeadline, hle⟩ := joinThreads_bounds hjoin
    simp only [List.nil_append, hitems] at hdeadline hle ⊢
    have h0 := largestTimeout_nonneg ((registrations events t).filter fun p => blocking || p.2.blocking)
    rw [max_eq_right (by linarith)] at hle
    exact ⟨trivial, hdeadline, hle⟩
  · rw [if_pos (by simp [ht])] at h
    obtain ⟨rfl, rfl⟩ := Prod.mk.inj (Except.ok.inj h)
    have hnil : registrations events t = [] := by
      simp only [registrations, listenersOf,
        PyDict.get?_eq_none.mpr (by simpa [dispatchTest] using ht)]
      rfl
    simp [hnil, largestTimeout]

theorem dispatchEvent_bounds_collectBegin :
    ∃ started tEnd, (dispatchEvent (fun _ => none) (fun _ => true) (fun _ => 5) 0
        (addEventListener (fun _ => true) 900 ∅ .collectBegin "metrics" true).2
        .collectBegin).2 = .ok (started, tEnd) ∧
      started = ["collect_begin_event-anonymous"] ∧ tEnd = 5 ∧
      (started = ((registrations (addEventListener (fun _ => true) 900 ∅ .collectBegin
            "metrics" true).2 .collectBegin).filter (fun _ => true)).map
          (threadName (fun _ => none) .collectBegin ·.1) ∧
        (∀ p ∈ (registrations (addEventListener (fun _ => true) 900 ∅ .collectBegin "metrics"
              true).2 .collectBegin).filter (fun p => false || p.2.blocking),
          (5 : ℚ) ≤ tEnd ∨ 0 + p.2.timeout ≤ tEnd) ∧
        tEnd ≤ 0 + largestTimeout ((registrations (addEventListener (fun _ => true) 900 ∅
            .collectBegin "metrics" true).2 .collectBegin).filter
            (fun p => false || p.2.blocking)) +
          ((registrations (addEventListener (fun _ => true) 900 ∅ .collectBegin "metrics"
            true).2 .collectBegin).filter (fun p => false || p.2.blocking)).length) :=
  ⟨_, _, rfl, rfl, by norm_num, dispatchEvent_bounds (fun _ => none) (fun _ => true) (fun _ => 5) 0
    (addEventListener (fun _ => true) 900 ∅ .collectBegin "metrics" true).2 .collectBegin false rfl⟩

end Registry

end Cloudkeeper

end Resoto
