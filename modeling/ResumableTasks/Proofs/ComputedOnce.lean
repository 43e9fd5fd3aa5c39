import Mathlib.Data.Set.Card
import ResumableTasks.Memo.History
/-!
A compute-once map over whole histories. Requests and initializers nest, so a history is a tree of
calls; beside it stands the row of its events, each with the map as it is then. The first completed
initializer of a key gives its value for good, a panic gives none, and the counters are read off the
row at every moment.
-/
namespace ResumableTasks

variable {κ α : Type}

/-- What happens to a key. A request is answered with the value that is kept, or it starts its own
initializer, and this comes to a value or panics. -/
inductive MemoEvent (κ α : Type) where
  | recalled (key : κ) (init : Initializer κ α) (a : α)
  | started (key : κ) (init : Initializer κ α)
  | computed (key : κ) (a : α)
  | panicked (key : κ) (text : String)

namespace MemoEvent

def ofResult (key : κ) : Except String α → MemoEvent κ α
  | .ok a => .computed key a
  | .error text => .panicked key text

def requested? : MemoEvent κ α → Option κ
  | .recalled key .. | .started key _ => some key
  | .computed .. | .panicked .. => none

def returns : MemoEvent κ α → Bool
  | .recalled .. | .computed .. => true
  | .started .. | .panicked .. => false

variable [DecidableEq κ]

def computed? (sought : κ) : MemoEvent κ α → Option α
  | .computed key a => if key = sought then some a else none
  | _ => none

def running (sought : κ) (before : Bool) : MemoEvent κ α → Bool
  | .started key _ => key = sought || before
  | .computed key _ | .panicked key _ => key ≠ sought && before
  | .recalled .. => before

end MemoEvent

section

variable [DecidableEq κ]

def firstComputed (events : List (MemoEvent κ α)) (key : κ) : Option α :=
  events.findSome? (MemoEvent.computed? key)

def isRunning (events : List (MemoEvent κ α)) (key : κ) : Bool :=
  events.foldl (MemoEvent.running key) false

/-- What may happen after the given events: a value is recalled if it was the first to be computed,
and an initializer runs only as long as none of the key has completed, one at a time. -/
def MemoEvent.Follows (past : List (MemoEvent κ α)) : MemoEvent κ α → Prop
  | .recalled key _ a => firstComputed past key = some a
  | .started key _ => firstComputed past key = none ∧ isRunning past key = false
  | .computed key _ | .panicked key _ => firstComputed past key = none ∧ isRunning past key = true

/-- A map after the given events: each key has the value of its first completed initializer, misses
count the keys that have a value, hits and misses the requests that were answered with one, and the
size is the number of keys that were ever requested. -/
structure Memo.Records (m : Memo κ α) (events : List (MemoEvent κ α)) : Prop where
  value : ∀ key, m.get? key = firstComputed events key
  misses : {key | (m.get? key).isSome}.encard = m.misses
  returned : m.hits + m.misses = events.countP MemoEvent.returns
  size : {key | key ∈ events.filterMap MemoEvent.requested?}.encard = m.size

end

structure MemoMoment (κ α : Type) where
  event : MemoEvent κ α
  memo : Memo κ α

variable [DecidableEq κ]

def Memo.requestMoments (m : Memo κ α) (key : κ) (init : Initializer κ α)
    (inner : Memo κ α → List (MemoMoment κ α)) : List (MemoMoment κ α) :=
  let requested := m.request key init
  match m.get? key with
  | some a => [⟨.recalled key init a, requested.2⟩]
  | none =>
    ⟨.started key init, m.reserve key⟩ ::
      (inner (m.reserve key) ++ [⟨.ofResult key requested.1, requested.2⟩])

namespace Initializer

def moments : Initializer κ α → Memo κ α → List (MemoMoment κ α)
  | .value _, _ | .panic _, _ => []
  | .request key init next, m =>
    m.requestMoments key init init.moments ++
      match m.request key init with
      | (.ok a, m) => (next a).moments m
      | (.error _, _) => []

/-- The initializer runs without a request for a key whose initializer is still running. -/
def Orderly : Initializer κ α → List κ → Memo κ α → Prop
  | .value _, _, _ | .panic _, _, _ => True
  | .request key init next, running, m =>
    key ∉ running ∧ (m.get? key = none → init.Orderly (key :: running) (m.reserve key)) ∧
      match m.request key init with
      | (.ok a, m) => (next a).Orderly running m
      | (.error _, _) => True

end Initializer

namespace MemoCall

def moments (m : Memo κ α) : MemoCall κ α → List (MemoMoment κ α)
  | .request key init => m.requestMoments key init init.moments
  | .look _ => []

def momentsAll (m : Memo κ α) : List (MemoCall κ α) → List (MemoMoment κ α)
  | [] => []
  | call :: rest => call.moments m ++ momentsAll (m.answer call).2 rest

def Orderly (m : Memo κ α) : MemoCall κ α → Prop
  | .request key init => m.get? key = none → init.Orderly [key] (m.reserve key)
  | .look _ => True

def AllOrderly (m : Memo κ α) : List (MemoCall κ α) → Prop
  | [] => True
  | call :: rest => call.Orderly m ∧ AllOrderly (m.answer call).2 rest

end MemoCall

theorem firstComputed_concat (events : List (MemoEvent κ α)) (event : MemoEvent κ α) (key : κ) :
    firstComputed (events ++ [event]) key =
      (firstComputed events key).or (event.computed? key) := by
  simp only [firstComputed, List.findSome?_append, List.findSome?_singleton]

theorem isRunning_concat (events : List (MemoEvent κ α)) (event : MemoEvent κ α) (key : κ) :
    isRunning (events ++ [event]) key = event.running key (isRunning events key) := by
  simp only [isRunning, List.foldl_append, List.foldl_cons, List.foldl_nil]

namespace Memo

theorem mem_places {cells : List (κ × Option α)} {key : κ} :
    key ∈ cells.map Prod.fst ↔ (cells.lookup key).isSome := by
  induction cells with
  | nil => simp
  | cons cell rest ih =>
    rw [List.map_cons, List.mem_cons, ih, lookup_cons_ite]
    split
    · next here => simp [here]
    · next elsewhere => simp [elsewhere]

theorem lookup_iff_mem {cells : List (κ × Option α)} (distinct : (cells.map Prod.fst).Nodup)
    {key : κ} {value : Option α} : cells.lookup key = some value ↔ (key, value) ∈ cells := by
  induction cells with
  | nil => simp
  | cons cell rest ih =>
    obtain ⟨held, own⟩ := cell
    obtain ⟨absent, others⟩ := List.nodup_cons.mp distinct
    rw [lookup_cons_ite, List.mem_cons, Prod.mk.injEq]
    split
    · next here =>
      subst here
      have gone : (key, value) ∉ rest := fun member => absent (List.mem_map.mpr ⟨_, member, rfl⟩)
      simp [gone, eq_comm]
    · next elsewhere => simp [elsewhere, ih others]

theorem countP_stored {cells : List (κ × Option α)} (distinct : (cells.map Prod.fst).Nodup)
    {key : κ} (vacant : cells.lookup key = some none) (a : α) :
    (cells.map fun cell => if cell.1 = key then (key, some a) else cell).countP (·.2.isSome) =
      cells.countP (·.2.isSome) + 1 := by
  induction cells with
  | nil => simp at vacant
  | cons cell rest ih =>
    obtain ⟨held, own⟩ := cell
    obtain ⟨absent, others⟩ := List.nodup_cons.mp distinct
    rw [lookup_cons_ite] at vacant
    split at vacant
    · next here =>
      subst here
      obtain rfl := Option.some.inj vacant
      have same : rest.map (fun cell => if cell.1 = key then (key, some a) else cell) = rest := by
        refine List.map_congr_left (fun cell member => if_neg fun here => ?_) |>.trans
          (List.map_id rest)
        exact absent (List.mem_map.mpr ⟨cell, member, here⟩)
      rw [List.map_cons, if_pos rfl, same, List.countP_cons, List.countP_cons]
      rfl
    · next elsewhere =>
      rw [List.map_cons, if_neg (Ne.symm elsewhere), List.countP_cons, List.countP_cons,
        ih others vacant]
      omega

theorem keys_store (m : Memo κ α) (key : κ) (a : α) :
    (m.store key a).cells.map Prod.fst = m.cells.map Prod.fst := by
  rw [store, List.map_map]
  refine List.map_congr_left fun cell _ => ?_
  simp only [Function.comp_apply]
  split
  · next here => exact here.symm
  · rfl

theorem reserve_of_placed {m : Memo κ α} {key : κ} (placed : (m.cells.lookup key).isSome) :
    m.reserve key = m := if_pos placed

theorem reserve_of_new {m : Memo κ α} {key : κ} (new : m.cells.lookup key = none) :
    m.reserve key = { m with cells := m.cells ++ [(key, none)] } := by
  simp [reserve, new]

theorem vacant_reserve {m : Memo κ α} {key : κ} (vacant : m.get? key = none) :
    (m.reserve key).cells.lookup key = some none := by
  obtain ⟨value, placed⟩ := Option.isSome_iff_exists.mp (m.lookup_reserve key)
  rw [← m.get?_reserve, get?, placed] at vacant
  rw [placed, show value = none from vacant]

theorem reserve_cells {m : Memo κ α} (distinct : (m.cells.map Prod.fst).Nodup) (key : κ) :
    ((m.reserve key).cells.map Prod.fst).Nodup ∧
      (∀ other, other ∈ (m.reserve key).cells.map Prod.fst ↔
        other ∈ m.cells.map Prod.fst ∨ other = key) ∧
      (m.reserve key).cells.countP (·.2.isSome) = m.cells.countP (·.2.isSome) ∧
      ∀ other, m.cells.lookup other = some none →
        (m.reserve key).cells.lookup other = some none := by
  cases placed : m.cells.lookup key with
  | some value =>
    have member : key ∈ m.cells.map Prod.fst := mem_places.mpr (by simp [placed])
    rw [reserve_of_placed (by simp [placed])]
    refine ⟨distinct, fun other => ⟨.inl, ?_⟩, rfl, fun _ => id⟩
    rintro (old | rfl)
    · exact old
    · exact member
  | none =>
    have absent : key ∉ m.cells.map Prod.fst := by simp [mem_places, placed]
    rw [reserve_of_new placed]
    refine ⟨?_, fun other => by simp, by simp, ?_⟩
    · rw [List.map_append, List.map_singleton]
      exact List.nodup_append_comm.mp (List.nodup_cons.mpr ⟨absent, distinct⟩)
    · intro other found
      simp [List.lookup_append, found]

/-- What holds of a map after some events, while the initializers of some keys are running. -/
structure Kept (running : List κ) (events : List (MemoEvent κ α)) (m : Memo κ α) : Prop where
  distinct : (m.cells.map Prod.fst).Nodup
  places : ∀ key, key ∈ m.cells.map Prod.fst ↔ key ∈ events.filterMap MemoEvent.requested?
  value : ∀ key, m.get? key = firstComputed events key
  misses : m.misses = m.cells.countP (·.2.isSome)
  returned : m.hits + m.misses = events.countP MemoEvent.returns
  active : ∀ key, isRunning events key = true ↔ key ∈ running
  vacant : ∀ key ∈ running, m.cells.lookup key = some none

namespace Kept

variable {running : List κ} {events : List (MemoEvent κ α)} {m : Memo κ α} {key : κ}

theorem nothing : Kept [] [] ({} : Memo κ α) where
  distinct := List.nodup_nil
  places _ := Iff.rfl
  value _ := rfl
  misses := rfl
  returned := rfl
  active := by simp [isRunning]
  vacant := by simp

theorem records (kept : Kept running events m) : m.Records events where
  value := kept.value
  misses := by
    have holding : {key | (m.get? key).isSome} =
        (((m.cells.filter (·.2.isSome)).map Prod.fst).toFinset : Set κ) := by
      ext key
      simp only [Set.mem_ofPred_eq, List.coe_toFinset, List.mem_map, List.mem_filter, get?,
        Option.isSome_iff_exists, Option.join_eq_some_iff]
      constructor
      · rintro ⟨a, found⟩
        exact ⟨(key, some a), ⟨(lookup_iff_mem kept.distinct).mp found, a, rfl⟩, rfl⟩
      · rintro ⟨⟨held, _⟩, ⟨member, a, rfl⟩, rfl⟩
        exact ⟨a, (lookup_iff_mem kept.distinct).mpr member⟩
    have distinct : ((m.cells.filter (·.2.isSome)).map Prod.fst).Nodup :=
      (List.filter_sublist.map Prod.fst).nodup kept.distinct
    rw [holding, Set.encard_coe_eq_coe_finsetCard, List.toFinset_card_of_nodup distinct,
      List.length_map, kept.misses, List.countP_eq_length_filter]
  returned := kept.returned
  size := by
    have placed : {key | key ∈ events.filterMap MemoEvent.requested?} =
        ((m.cells.map Prod.fst).toFinset : Set κ) := by
      ext key
      rw [Set.mem_ofPred_eq, ← kept.places, List.coe_toFinset]
      rfl
    rw [placed, Set.encard_coe_eq_coe_finsetCard, List.toFinset_card_of_nodup kept.distinct,
      List.length_map, size]

theorem recalls (kept : Kept running events m) {a : α} (held : m.get? key = some a)
    (init : Initializer κ α) :
    Kept running (events ++ [.recalled key init a]) { m with hits := m.hits + 1 } where
  distinct := kept.distinct
  places other := by
    have placed : key ∈ m.cells.map Prod.fst :=
      mem_places.mpr (Option.isSome_of_eq_some (Option.join_eq_some_iff.mp held))
    rw [List.filterMap_append, List.mem_append, ← kept.places]
    exact ⟨.inl, fun member => member.elim id fun here => List.mem_singleton.mp here ▸ placed⟩
  value other := by
    rw [firstComputed_concat]
    exact (kept.value other).trans Option.or_none.symm
  misses := kept.misses
  returned := by
    rw [List.countP_append, ← kept.returned]
    exact Nat.add_right_comm ..
  active other := by
    rw [isRunning_concat]
    exact kept.active other
  vacant := kept.vacant

theorem start (kept : Kept running events m) (unset : m.get? key = none)
    (init : Initializer κ α) :
    Kept (key :: running) (events ++ [.started key init]) (m.reserve key) := by
  have vacant := vacant_reserve unset
  have counts := m.reserve_counts key
  obtain ⟨distinct, places, holding, others⟩ := reserve_cells kept.distinct key
  constructor
  · exact distinct
  · intro other
    rw [places, List.filterMap_append, List.mem_append, kept.places]
    exact or_congr_right List.mem_singleton.symm
  · intro other
    rw [get?_reserve, kept.value, firstComputed_concat]
    exact Option.or_none.symm
  · rw [counts.2, holding, kept.misses]
  · rw [counts.1, counts.2, kept.returned, List.countP_append]
    rfl
  · intro other
    rw [isRunning_concat, List.mem_cons, ← kept.active, MemoEvent.running, Bool.or_eq_true,
      decide_eq_true_eq]
    exact or_congr_left eq_comm
  · intro other member
    rcases List.mem_cons.mp member with rfl | earlier
    · exact vacant
    · exact others other (kept.vacant other earlier)

theorem active_ended (kept : Kept (key :: running) events m) (fresh : key ∉ running)
    (result : Except String α) (other : κ) :
    isRunning (events ++ [.ofResult key result]) other = true ↔ other ∈ running := by
  have before := kept.active other
  rw [List.mem_cons] at before
  rw [isRunning_concat]
  cases result <;>
  · simp only [MemoEvent.ofResult, MemoEvent.running, Bool.and_eq_true, decide_eq_true_eq, before]
    by_cases here : other = key
    · subst here
      simp [fresh]
    · simp [here, Ne.symm here]

theorem compute (kept : Kept (key :: running) events m) (fresh : key ∉ running) (a : α) :
    Kept running (events ++ [.computed key a])
      { m.store key a with misses := m.misses + 1 } := by
  have vacant := kept.vacant key List.mem_cons_self
  have unset : m.get? key = none := by simp [get?, vacant]
  constructor
  · rw [keys_store]
    exact kept.distinct
  · intro other
    rw [keys_store, kept.places, List.filterMap_append]
    exact (or_iff_left List.not_mem_nil).symm.trans List.mem_append.symm
  · intro other
    have stored : (m.store key a).get? other = if other = key then some a else m.get? other :=
      m.get?_store (by simp [vacant]) a other
    rw [firstComputed_concat, ← kept.value]
    refine stored.trans ?_
    by_cases here : other = key
    · simp [here, unset, MemoEvent.computed?]
    · simp [here, Ne.symm here, MemoEvent.computed?]
  · rw [kept.misses]
    exact (countP_stored kept.distinct vacant a).symm
  · rw [List.countP_append, ← kept.returned]
    exact (Nat.add_assoc ..).symm
  · exact kept.active_ended fresh (.ok a)
  · intro other member
    have elsewhere : other ≠ key := fun here => fresh (here ▸ member)
    rw [store, lookup_stored, if_neg elsewhere]
    exact kept.vacant other (List.mem_cons_of_mem key member)

theorem panic (kept : Kept (key :: running) events m) (fresh : key ∉ running) (text : String) :
    Kept running (events ++ [.panicked key text]) m where
  distinct := kept.distinct
  places other := by
    rw [kept.places, List.filterMap_append]
    exact (or_iff_left List.not_mem_nil).symm.trans List.mem_append.symm
  value other := by
    rw [firstComputed_concat, kept.value]
    exact Option.or_none.symm
  misses := kept.misses
  returned := by
    rw [List.countP_append, ← kept.returned]
    rfl
  active := kept.active_ended fresh (.error text)
  vacant other member := kept.vacant other (List.mem_cons_of_mem key member)

theorem follows_end (kept : Kept (key :: running) events m) (result : Except String α) :
    (MemoEvent.ofResult key result).Follows events := by
  have unset : firstComputed events key = none := by
    rw [← kept.value, get?, kept.vacant key List.mem_cons_self]
    rfl
  have active := (kept.active key).mpr List.mem_cons_self
  cases result <;> exact ⟨unset, active⟩

end Kept

end Memo

/-- Each of these moments follows the events before it, of which `past` came first, and its map
records them. -/
def Lawful (past : List (MemoEvent κ α)) : List (MemoMoment κ α) → Prop
  | [] => True
  | moment :: rest =>
    moment.event.Follows past ∧ moment.memo.Records (past ++ [moment.event]) ∧
      Lawful (past ++ [moment.event]) rest

theorem lawful_append {past : List (MemoEvent κ α)} {first later : List (MemoMoment κ α)} :
    Lawful past (first ++ later) ↔
      Lawful past first ∧ Lawful (past ++ first.map MemoMoment.event) later := by
  induction first generalizing past with
  | nil => simp [Lawful]
  | cons moment rest ih =>
    simp only [List.cons_append, Lawful, ih, List.map_cons, List.append_assoc, List.nil_append,
      and_assoc]

theorem Lawful.at {past : List (MemoEvent κ α)} {before after : List (MemoMoment κ α)}
    {moment : MemoMoment κ α} (lawful : Lawful past (before ++ moment :: after)) :
    moment.event.Follows (past ++ before.map MemoMoment.event) ∧
      moment.memo.Records (past ++ (before ++ [moment]).map MemoMoment.event) := by
  obtain ⟨-, follows, records, -⟩ := lawful_append.mp lawful
  rw [List.append_assoc] at records
  exact ⟨follows, by simpa using records⟩

def Memo.Keeps (running : List κ) (past : List (MemoEvent κ α)) (moments : List (MemoMoment κ α))
    (m : Memo κ α) : Prop :=
  Lawful past moments ∧ Memo.Kept running (past ++ moments.map MemoMoment.event) m

namespace Memo

variable {running : List κ} {past : List (MemoEvent κ α)} {m : Memo κ α}

theorem Keeps.andThen {running' : List κ} {first later : List (MemoMoment κ α)} {m' : Memo κ α}
    (keeps : Keeps running' past first m)
    (goes_on : Keeps running (past ++ first.map MemoMoment.event) later m') :
    Keeps running past (first ++ later) m' := by
  refine ⟨lawful_append.mpr ⟨keeps.1, goes_on.1⟩, ?_⟩
  rw [List.map_append, ← List.append_assoc]
  exact goes_on.2

theorem Keeps.one {running' : List κ} {event : MemoEvent κ α} (follows : event.Follows past)
    (kept : Kept running' (past ++ [event]) m) : Keeps running' past [⟨event, m⟩] m :=
  ⟨⟨follows, kept.records, trivial⟩, kept⟩

theorem request_recalls {key : κ} {a : α} (held : m.get? key = some a) (init : Initializer κ α) :
    m.request key init = (.ok a, { m with hits := m.hits + 1 }) := by
  have placed : (m.cells.lookup key).isSome :=
    Option.isSome_of_eq_some (Option.join_eq_some_iff.mp held)
  simp only [request, requestWith, reserve_of_placed placed, held]

theorem request_keeps {key : κ} {init : Initializer κ α}
    (inner : ∀ {running past m}, Kept running past m → init.Orderly running m →
      Keeps running past (init.moments m) (evaluate init m).2)
    (kept : Kept running past m) (fresh : key ∉ running)
    (orderly : m.get? key = none → init.Orderly (key :: running) (m.reserve key)) :
    Keeps running past (m.requestMoments key init init.moments) (m.request key init).2 := by
  cases held : m.get? key with
  | some a =>
    simp only [requestMoments, held, request_recalls held]
    exact .one ((kept.value key).symm.trans held) (kept.recalls held init)
  | none =>
    have unset := (kept.value key).symm.trans held
    have idle : isRunning past key = false := Bool.eq_false_iff.mpr fun active =>
      fresh ((kept.active key).mp active)
    have started : Keeps (key :: running) past [⟨.started key init, m.reserve key⟩] _ :=
      .one ⟨unset, idle⟩ (kept.start held init)
    have ran := started.andThen (inner started.2 (orderly held))
    have vacant : (m.reserve key).get? key = none := (m.get?_reserve key key).trans held
    simp only [requestMoments, held, request, requestWith, vacant]
    cases ended : evaluate init (m.reserve key) with
    | mk result m' =>
      rw [ended] at ran
      have follows := ran.2.follows_end result
      cases result with
      | ok a => exact ran.andThen (.one follows (ran.2.compute fresh a))
      | error text => exact ran.andThen (.one follows (ran.2.panic fresh text))

theorem evaluate_keeps (init : Initializer κ α) {running : List κ} {past : List (MemoEvent κ α)}
    {m : Memo κ α} (kept : Kept running past m) (orderly : init.Orderly running m) :
    Keeps running past (init.moments m) (evaluate init m).2 := by
  -- On the tree of requests. The initializer of a request runs with its key among the running
  -- ones, and what comes after the request goes on from the events that it left.
  induction init generalizing running past m with
  | value a => exact ⟨trivial, by simpa [Initializer.moments, evaluate] using kept⟩
  | panic text => exact ⟨trivial, by simpa [Initializer.moments, evaluate] using kept⟩
  | request key init next innerIh ih =>
    rw [Initializer.Orderly] at orderly
    obtain ⟨fresh, inner, later⟩ := orderly
    have requested := request_keeps innerIh kept fresh inner
    simp only [Initializer.moments, evaluate]
    change Keeps running past _ (match m.request key init with
      | (.ok a, m) => evaluate (next a) m
      | (.error text, m) => (.error text, m)).2
    cases answered : m.request key init with
    | mk result m' =>
      rw [answered] at requested later
      cases result with
      | ok a => exact requested.andThen (ih a requested.2 later)
      | error text => simpa using requested

theorem answer_keeps {call : MemoCall κ α} (kept : Kept [] past m) (orderly : call.Orderly m) :
    Keeps [] past (call.moments m) (m.answer call).2 := by
  cases call with
  | request key init =>
    exact request_keeps (evaluate_keeps init) kept List.not_mem_nil orderly
  | look key => exact ⟨trivial, by simpa [MemoCall.moments, answer] using kept⟩

theorem answerAll_keeps {calls : List (MemoCall κ α)} (kept : Kept [] past m)
    (orderly : MemoCall.AllOrderly m calls) :
    Keeps [] past (MemoCall.momentsAll m calls) (m.answerAll calls).2 := by
  induction calls generalizing past m with
  | nil => exact ⟨trivial, by simpa [MemoCall.momentsAll, answerAll] using kept⟩
  | cons call rest ih =>
    have answered := answer_keeps kept orderly.1
    exact answered.andThen (ih answered.2 orderly.2)

theorem requestMoments_returned {key : κ} {init : Initializer κ α} {a : α}
    (returned : (m.request key init).1 = .ok a) (inner : Memo κ α → List (MemoMoment κ α)) :
    ∃ first event, m.requestMoments key init inner = first ++ [⟨event, (m.request key init).2⟩] ∧
      (event = .recalled key init a ∨ event = .computed key a) := by
  cases held : m.get? key with
  | some kept =>
    rw [request_recalls held] at returned
    obtain rfl := Except.ok.inj returned
    exact ⟨[], _, by simp only [requestMoments, held, List.nil_append], .inl rfl⟩
  | none =>
    refine ⟨⟨.started key init, m.reserve key⟩ :: inner (m.reserve key), .computed key a, ?_,
      .inr rfl⟩
    simp only [requestMoments, held, returned, MemoEvent.ofResult, List.cons_append]

theorem request_returns {key : κ} {init : Initializer κ α} (kept : Kept [] past m)
    (orderly : (MemoCall.request key init).Orderly m) {a : α}
    (returned : (m.request key init).1 = .ok a) : (m.request key init).2.get? key = some a := by
  obtain ⟨lawful, -⟩ := answer_keeps kept orderly
  obtain ⟨first, event, moments, ended⟩ := requestMoments_returned returned init.moments
  rw [MemoCall.moments, moments] at lawful
  obtain ⟨follows, records⟩ := lawful.at
  rw [records.value, List.map_append, ← List.append_assoc, List.map_singleton,
    firstComputed_concat]
  rcases ended with rfl | rfl
  · rw [show firstComputed _ key = some a from follows]
    rfl
  · rw [show firstComputed _ key = none from follows.1]
    simp [MemoEvent.computed?]

theorem answerAll_requests (m : Memo κ α) (calls : List (MemoCall κ α)) :
    (m.answerAll (calls.filter MemoCall.isRequest)).2 = (m.answerAll calls).2 := by
  induction calls generalizing m with
  | nil => rfl
  | cons call rest ih =>
    cases call with
    | request key init => exact ih _
    | look key => exact ih m

end Memo

section

variable {log before after : List (MemoMoment κ α)} {moment : MemoMoment κ α}

theorem Lawful.constant {first later : MemoMoment κ α} {between : List (MemoMoment κ α)}
    (lawful : Lawful [] (before ++ first :: (between ++ later :: after))) {key : κ} {a : α}
    (held : first.memo.get? key = some a) : later.memo.get? key = some a := by
  have earlier := lawful.at.2.value key
  rw [← List.cons_append, ← List.append_assoc] at lawful
  rw [lawful.at.2.value, List.nil_append]
  rw [held, List.nil_append] at earlier
  -- The first initializer to complete stays the first, however the history goes on.
  have split : before ++ first :: between ++ [later] =
      before ++ [first] ++ (between ++ [later]) := by simp
  rw [split, List.map_append, firstComputed, List.findSome?_append]
  rw [firstComputed] at earlier
  rw [← earlier, Option.some_or]

theorem Lawful.unset {past : List (MemoEvent κ α)} {moments : List (MemoMoment κ α)} {key : κ}
    (lawful : Lawful past moments) (idle : isRunning past key = false)
    (unset : firstComputed past key = none)
    (unrequested : ∀ m ∈ moments, m.event.requested? ≠ some key) :
    firstComputed (past ++ moments.map MemoMoment.event) key = none := by
  induction moments generalizing past with
  | nil => simpa using unset
  | cons moment rest ih =>
    obtain ⟨follows, -, later⟩ := lawful
    have own := unrequested moment List.mem_cons_self
    have nothing : moment.event.computed? key = none ∧
        moment.event.running key false = false := by
      cases happens : moment.event with
      | recalled => exact ⟨rfl, rfl⟩
      | started held init => simpa [happens, MemoEvent.computed?, MemoEvent.running,
          MemoEvent.requested?] using own
      -- Only a running initializer completes, and none of this key is running.
      | computed held a =>
        rw [happens] at follows
        have elsewhere : held ≠ key := by
          rintro rfl
          exact Bool.false_ne_true (idle.symm.trans follows.2)
        simp [MemoEvent.computed?, MemoEvent.running, elsewhere]
      | panicked => simp [MemoEvent.computed?, MemoEvent.running]
    have goes_on := ih later (by rw [isRunning_concat, idle, nothing.2])
      (by rw [firstComputed_concat, unset, nothing.1]; rfl)
      fun m member => unrequested m (List.mem_cons_of_mem moment member)
    simpa using goes_on

theorem Lawful.retried {next : MemoMoment κ α} {between : List (MemoMoment κ α)} {key : κ}
    {text : String} (lawful : Lawful [] (before ++ moment :: (between ++ next :: after)))
    (panicked : moment.event = .panicked key text)
    (unrequested : ∀ m ∈ between, m.event.requested? ≠ some key)
    (requested : next.event.requested? = some key) : ∃ init, next.event = .started key init := by
  obtain ⟨-, follows, -, later⟩ := lawful_append.mp lawful
  rw [panicked] at follows later
  rw [List.nil_append] at follows later
  obtain ⟨lawful_between, own, -⟩ := lawful_append.mp later
  have idle : isRunning (before.map MemoMoment.event ++ [.panicked key text]) key = false := by
    simp [isRunning_concat, MemoEvent.running]
  have valueless : firstComputed (before.map MemoMoment.event ++ [.panicked key text]) key =
      none := by
    rw [firstComputed_concat, follows.1]
    rfl
  have unset := lawful_between.unset idle valueless unrequested
  cases happens : next.event with
  | recalled held init a =>
    rw [happens] at own requested
    obtain rfl := Option.some.inj requested
    cases unset.symm.trans own
  | started held init =>
    rw [happens] at requested
    obtain rfl := Option.some.inj requested
    exact ⟨init, rfl⟩
  | computed | panicked => simp [happens, MemoEvent.requested?] at requested

end

namespace Memo

/-- In every history of requests and looks, with initializers that return, panic or request other
keys: at each moment a key has the value of its first completed initializer and keeps it, no
initializer of the key runs from then on, and the counters agree with what has happened. A panic
leaves the key without a value, and the next request of it runs its own initializer. A request that
returns answers with the value that is kept then; a look answers with it and changes nothing. -/
theorem values_are_computed_once (calls : List (MemoCall κ α))
    (orderly : MemoCall.AllOrderly {} calls) :
    let log := MemoCall.momentsAll ({} : Memo κ α) calls
    let past := (({} : Memo κ α).answerAll calls).2
    (∀ before moment after, log = before ++ moment :: after →
      moment.event.Follows (before.map MemoMoment.event) ∧
      moment.memo.Records ((before ++ [moment]).map MemoMoment.event)) ∧
    (∀ before first between later after, log = before ++ first :: (between ++ later :: after) →
      ∀ key a, first.memo.get? key = some a → later.memo.get? key = some a) ∧
    (∀ before moment after key text, log = before ++ moment :: after →
      moment.event = .panicked key text → moment.memo.get? key = none ∧
      ∀ between next rest, after = between ++ next :: rest →
        (∀ m ∈ between, m.event.requested? ≠ some key) → next.event.requested? = some key →
        ∃ init, next.event = .started key init) ∧
    past.Records (log.map MemoMoment.event) ∧
    (∀ key init, (MemoCall.request key init).Orderly past → ∀ a,
      (past.request key init).1 = .ok a → (past.request key init).2.get? key = some a) ∧
    (∀ key, past.answer (.look key) =
      (.looked (firstComputed (log.map MemoMoment.event) key), past)) ∧
    (({} : Memo κ α).answerAll (calls.filter MemoCall.isRequest)).2 = past := by
  intro log past
  obtain ⟨lawful, kept⟩ := answerAll_keeps Kept.nothing orderly
  rw [List.nil_append] at kept
  have at_moment {before after : List (MemoMoment κ α)} {moment : MemoMoment κ α}
      (split : log = before ++ moment :: after) :
      moment.event.Follows (before.map MemoMoment.event) ∧
        moment.memo.Records ((before ++ [moment]).map MemoMoment.event) := by
    have lawful := lawful
    rw [show MemoCall.momentsAll {} calls = _ from split] at lawful
    simpa using lawful.at
  refine ⟨fun _ _ _ split => at_moment split, ?_, ?_, kept.records, ?_, ?_, ?_⟩
  · intro before first between later after split key a held
    rw [show MemoCall.momentsAll {} calls = _ from split] at lawful
    exact lawful.constant held
  · intro before moment after key text split panicked
    obtain ⟨follows, records⟩ := at_moment split
    constructor
    · rw [panicked] at follows
      rw [records.value, List.map_append, List.map_singleton, firstComputed_concat, panicked,
        follows.1]
      rfl
    · rintro between next rest rfl unrequested requested
      rw [show MemoCall.momentsAll {} calls = _ from split] at lawful
      exact lawful.retried panicked unrequested requested
  · intro key init own a returned
    exact request_returns kept own returned
  · intro key
    rw [answer, kept.value]
  · exact answerAll_requests {} calls

end Memo

/-- The first initializer of one key requests another key, whose initializer panics. Both are
requested again, and the second value of the other key comes too late. -/
def MemoCall.retries : List (MemoCall Nat Nat) :=
  [.request 0 (.request 1 (.panic "lost") fun n => .value (n + 1)), .look 0,
    .request 0 (.request 1 (.value 4) fun n => .value (n + 1)), .request 1 (.value 9), .look 0]

theorem nested_retry_computes_once :
    MemoCall.AllOrderly {} MemoCall.retries ∧
    (({} : Memo Nat Nat).answerAll MemoCall.retries).2.Records
      ((MemoCall.momentsAll {} MemoCall.retries).map MemoMoment.event) ∧
    (({} : Memo Nat Nat).answerAll MemoCall.retries).2 =
      { cells := [(0, some 5), (1, some 4)], hits := 1, misses := 2 } := by
  have orderly : MemoCall.AllOrderly {} MemoCall.retries := by
    refine ⟨fun _ => ⟨by decide, fun _ => trivial, trivial⟩, trivial,
      fun _ => ⟨by decide, fun _ => trivial, trivial⟩, fun _ => trivial, trivial, trivial⟩
  exact ⟨orderly, (Memo.values_are_computed_once MemoCall.retries orderly).2.2.2.1, rfl⟩

end ResumableTasks
