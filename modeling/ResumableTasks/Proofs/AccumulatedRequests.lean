import ResumableTasks.Proofs.NotedHistory
import ResumableTasks.Proofs.RecoveredFrame
import ResumableTasks.Proofs.SchedulerCompletion
/-!
Requests to stop a task accumulate. However many there are and whoever makes them, the recorded
reason has the strongest kind that was requested and the first message that came with this kind.
This is what the routine is told when it observes the cancellation, and the outcome if it ends by
it. Beside a history stands the log of what happens to the cancellation of one task.
-/
namespace ResumableTasks

variable {ρ ε α : Type}

theorem CancelKind.strength_injective {a b : CancelKind} (same : a.strength = b.strength) :
    a = b := by
  cases a <;> cases b <;> simp [strength] at same ⊢

namespace CancelReason

/-- What requests come to: the strongest kind among them, and the first message that came with a
request of this kind. -/
structure Strongest (requests : List CancelReason) (r : CancelReason) : Prop where
  kind : ∃ q ∈ requests, q.kind = r.kind
  bound : ∀ q ∈ requests, q.kind.strength ≤ r.kind.strength
  message : r.message = (requests.filter (·.kind = r.kind)).findSome? CancelReason.message

def SumOf (requests : List CancelReason) : Option CancelReason → Prop
  | none => requests = []
  | some r => Strongest requests r

variable {r s q : CancelReason} {requests more : List CancelReason}

theorem strengthen_weaker (weaker : s.kind.strength < r.kind.strength) : r.strengthen s = r := by
  have not_stronger : ¬ r.kind.strength < s.kind.strength := by omega
  have other : s.kind ≠ r.kind := by
    intro same
    rw [same] at weaker
    omega
  simp [strengthen, strengthening, not_stronger, other]

theorem strengthen_stronger (stronger : r.kind.strength < s.kind.strength) :
    r.strengthen s = s := by
  simp [strengthen, strengthening, stronger]

theorem strengthen_same (same : s.kind = r.kind) :
    r.strengthen s = { r with message := r.message.or s.message } := by
  cases recorded : r.message with
  | some text =>
    have unchanged : r.strengthen s = r := by
      simp [strengthen, strengthening, same, recorded]
    rw [unchanged, Option.some_or, ← recorded]
  | none =>
    rw [Option.none_or]
    cases given : s.message with
    | some text => simp [strengthen, strengthening, same, recorded, given]
    | none =>
      rw [← recorded]
      simp [strengthen, strengthening, same, given]

theorem strengthening_changes_iff (r q : CancelReason) :
    (r.strengthening q).1 = true ↔ (r.strengthening q).2 ≠ r := by
  unfold strengthening
  split
  · next stronger =>
    have other : q ≠ r := by
      rintro rfl
      omega
    simp [other]
  · split
    · next adds =>
      obtain ⟨same, unset, given⟩ := adds
      have other : { r with message := q.message } ≠ r := by
        intro unchanged
        rw [← unchanged] at unset
        exact given unset
      simp [other]
    · simp

theorem Strongest.single (r : CancelReason) : Strongest [r] r where
  kind := ⟨r, List.mem_singleton_self r, rfl⟩
  bound q member := Nat.le_of_eq (by rw [List.mem_singleton.mp member])
  message := by cases given : r.message <;> simp [given]

theorem Strongest.filter_stronger (strongest : Strongest requests r) {kind : CancelKind}
    (stronger : r.kind.strength < kind.strength) : requests.filter (·.kind = kind) = [] := by
  rw [List.filter_eq_nil_iff]
  intro q member same
  have weaker := strongest.bound q member
  rw [of_decide_eq_true same] at weaker
  omega

/-- What the first requests come to, strengthened by what the later ones come to, is what all of
them come to. -/
theorem Strongest.append (first : Strongest requests r) (later : Strongest more s) :
    Strongest (requests ++ more) (r.strengthen s) := by
  -- Both sides have a say in the message only at one level; else the weaker side has no request of
  -- the kind that counts.
  rcases Nat.lt_trichotomy r.kind.strength s.kind.strength with stronger | level | weaker
  · rw [strengthen_stronger stronger]
    constructor
    · obtain ⟨q, member, same⟩ := later.kind
      exact ⟨q, List.mem_append_right _ member, same⟩
    · intro q member
      rcases List.mem_append.mp member with earlier | own
      · have weaker := first.bound q earlier
        omega
      · exact later.bound q own
    · rw [List.filter_append, first.filter_stronger stronger, List.nil_append]
      exact later.message
  · have same : s.kind = r.kind := CancelKind.strength_injective level.symm
    rw [strengthen_same same]
    constructor
    · obtain ⟨q, member, own⟩ := first.kind
      exact ⟨q, List.mem_append_left _ member, own⟩
    · intro q member
      rcases List.mem_append.mp member with earlier | own
      · exact first.bound q earlier
      · have weaker := later.bound q own
        rwa [same] at weaker
    · have message := later.message
      rw [same] at message
      rw [List.filter_append, List.findSome?_append, ← first.message, ← message]
  · rw [strengthen_weaker weaker]
    constructor
    · obtain ⟨q, member, own⟩ := first.kind
      exact ⟨q, List.mem_append_left _ member, own⟩
    · intro q member
      rcases List.mem_append.mp member with earlier | own
      · exact first.bound q earlier
      · have bounded := later.bound q own
        omega
    · rw [List.filter_append, later.filter_stronger weaker, List.append_nil]
      exact first.message

theorem Strongest.unique (one : Strongest requests r) (other : Strongest requests s) : r = s := by
  have kind : r.kind = s.kind := by
    obtain ⟨q, member, own⟩ := one.kind
    obtain ⟨q', member', own'⟩ := other.kind
    have below := other.bound q member
    have above := one.bound q' member'
    rw [own] at below
    rw [own'] at above
    exact CancelKind.strength_injective (Nat.le_antisymm below above)
  have message : r.message = s.message := by
    rw [one.message, other.message, kind]
  cases r
  cases s
  simp_all

theorem strengthen_assoc (a b c : CancelReason) :
    a.strengthen (b.strengthen c) = (a.strengthen b).strengthen c := by
  -- Both groupings come to the strongest of the same three requests.
  have right := (Strongest.single a).append ((Strongest.single b).append (.single c))
  have left := ((Strongest.single a).append (.single b)).append (.single c)
  exact right.unique left

theorem Strongest.foldl (strongest : Strongest requests r) (later : List CancelReason) :
    Strongest (requests ++ later) (later.foldl strengthen r) := by
  induction later generalizing requests r with
  | nil =>
    rw [List.append_nil]
    exact strongest
  | cons q rest ih =>
    have next := ih (strongest.append (.single q))
    rwa [List.append_assoc] at next

theorem Strongest.repeated (strongest : Strongest requests r) (member : q ∈ requests) :
    r.strengthening q = (false, r) := by
  have not_stronger : ¬ r.kind.strength < q.kind.strength := by
    have bounded := strongest.bound q member
    omega
  have adds_nothing : ¬ (q.kind = r.kind ∧ r.message = none ∧ q.message ≠ none) := by
    rintro ⟨same, unset, given⟩
    have silent := strongest.message.symm.trans unset
    rw [List.findSome?_eq_none_iff] at silent
    exact given (silent q (List.mem_filter.mpr ⟨member, by simpa using same⟩))
  simp only [strengthening, not_stronger, adds_nothing, if_false]

theorem SumOf.request {recorded : Option CancelReason} (sum : SumOf requests recorded)
    (q : CancelReason) :
    SumOf (requests ++ [q]) (some ((recorded.map (·.strengthen q)).getD q)) := by
  cases recorded with
  | none =>
    obtain rfl : requests = [] := sum
    exact Strongest.single q
  | some r => exact Strongest.append sum (.single q)

end CancelReason

/-- What happens to the cancellation of a task: a request to stop is answered, or the task is told
of the reason, when it is run for the first time or by an operation of its routine. -/
inductive StopEvent where
  | requested (request : CancelReason) (accepted : Bool)
  | observed (reason : CancelReason)
  deriving DecidableEq, Repr

namespace StopEvent

def request? : StopEvent → Option CancelReason
  | .requested request _ => some request
  | .observed _ => none

def requests (log : List StopEvent) : List CancelReason := log.filterMap request?

def Accepted (log : List StopEvent) : Prop :=
  ∀ request accepted, .requested request accepted ∈ log → accepted = true

theorem requests_append (log later : List StopEvent) :
    requests (log ++ later) = requests log ++ requests later :=
  List.filterMap_append

theorem Accepted.request {log : List StopEvent} (accepted : Accepted log) (q : CancelReason) :
    Accepted (log ++ [.requested q true]) := by
  intro request answer member
  rcases List.mem_append.mp member with earlier | own
  · exact accepted request answer earlier
  · cases List.mem_singleton.mp own
    rfl

theorem Accepted.observation {log : List StopEvent} (accepted : Accepted log) (r : CancelReason) :
    Accepted (log ++ [.observed r]) := by
  intro request answer member
  rcases List.mem_append.mp member with earlier | own
  · exact accepted request answer earlier
  · cases List.mem_singleton.mp own

end StopEvent

open StopEvent CancelReason

def Unwind.reason? : Unwind → Option CancelReason
  | .cancelled reason => some reason
  | _ => none

namespace Context

/-- What a checkpoint, or the checkpoint of a rewound suspension, tells its routine. -/
def told (cx : Context ρ ε) : Op ρ ε → Option CancelReason
  | .checkpoint =>
    match cx.checkpoint with
    | .error unwind => unwind.reason?
    | .ok () => none
  | .pause reason =>
    match (cx.pause reason).1 with
    | .unwound unwind => unwind.reason?
    | _ => none
  | _ => none

theorem checkpoint_tells {cx : Context ρ ε} {unwind : Unwind} {r : CancelReason}
    (checked : cx.checkpoint = .error unwind) (tells : unwind.reason? = some r) :
    cx.cancelRequest = some r := by
  unfold checkpoint at checked
  split at checked
  · next recorded requested =>
    cases checked
    cases tells
    exact requested
  · cases checked

theorem pause_tells {cx : Context ρ ε} {reason : WaitReason} {unwind : Unwind} {r : CancelReason}
    (paused : (cx.pause reason).1 = .unwound unwind) (tells : unwind.reason? = some r) :
    cx.cancelRequest = some r := by
  unfold pause at paused
  dsimp only at paused
  split at paused
  · cases paused
  · split at paused
    · cases paused
    · split at paused
      · cases paused
        cases tells
      · next checked =>
        cases paused
        split at checked
        · exact checkpoint_tells checked tells
        · cases checked
      · split at paused <;> cases paused

theorem cancelRequest_of_told {cx : Context ρ ε} {op : Op ρ ε} {r : CancelReason}
    (tells : cx.told op = some r) : cx.cancelRequest = some r := by
  unfold told at tells
  split at tells
  · split at tells
    · next checked => exact checkpoint_tells checked tells
    · cases tells
  · split at tells
    · next paused => exact pause_tells paused tells
    · cases tells
  · cases tells

end Context

namespace World

def toldUnstarted (w : World ρ ε) (task : Nat) : Option CancelReason :=
  match w.tasks[task]?.map Task.admission with
  | some (.cancelled reason) => some reason
  | _ => none

variable {w : World ρ ε} {task : Nat}

theorem toldUnstarted_eq_some {r : CancelReason} (tells : w.toldUnstarted task = some r) :
    ∃ t, w.tasks[task]? = some t ∧ t.state = .new ∧ t.cancel = some r := by
  unfold toldUnstarted at tells
  split at tells
  · next reason admitted =>
    cases tells
    obtain ⟨t, found, admission⟩ := Option.map_eq_some_iff.mp admitted
    refine ⟨t, found, ?_⟩
    unfold Task.admission at admission
    split at admission
    · cases admission
    · cases admission
    · next new recorded =>
      cases admission
      exact ⟨new, recorded⟩
    · split at admission <;> cases admission
  · cases tells

theorem runTask_of_neither (sound : w.Sound) (unentered : w.entry task = none)
    (untold : w.toldUnstarted task = none) (execute : Context ρ ε → Ending α × Context ρ ε) :
    (w.runTask execute task).2 = w := by
  cases found : w.tasks[task]? with
  | none => simp only [runTask, found]
  | some t =>
    rcases (sound task t found).admission_cases with ⟨-, error, refused⟩ | ⟨-, error, refused, -⟩ |
      ⟨-, reason, cancelled⟩ | ⟨-, -, frames, admitted⟩
    · simp only [runTask, found, refused]
    · simp only [runTask, found, refused]
    · simp [toldUnstarted, found, cancelled] at untold
    · simp [entry, found, admitted] at unentered

theorem toldUnstarted_of_entered {cx : Context ρ ε} (entered : w.entry task = some cx) :
    w.toldUnstarted task = none := by
  cases tells : w.toldUnstarted task with
  | none => rfl
  | some r =>
    obtain ⟨t, found, new, recorded⟩ := toldUnstarted_eq_some tells
    rw [entry_of_unstarted found new recorded] at entered
    cases entered

end World

def Notary.stopping (i : Nat) : Notary ρ ε StopEvent where
  cancel w task reason :=
    if task = i ∧ w.tasks[i]?.isSome then [.requested reason (w.cancel task reason).1] else []
  run w task := if task = i then (w.toldUnstarted i).toList.map .observed else []
  watch cx op := if cx.task = i then (cx.told op).toList.map .observed else []

theorem Notary.stopping_untold {w : World ρ ε} {task : Nat} (untold : w.toldUnstarted task = none)
    (i : Nat) : (Notary.stopping i : Notary ρ ε StopEvent).run w task = [] := by
  simp only [stopping]
  split
  · next own =>
    rw [← own, untold]
    rfl
  · rfl

/-- What the log of a task says of the task in this world. While it is not done every request was
accepted, and what is recorded is what they come to; so it was whenever a reason was observed. -/
structure Heeded (i : Nat) (log : List StopEvent) (w : World ρ ε) : Prop where
  observed : ∀ before r after, log = before ++ .observed r :: after →
    Accepted before ∧ Strongest (requests before) r
  pending : ∀ t, w.tasks[i]? = some t → t.isDone = false →
    Accepted log ∧ SumOf (requests log) t.cancel
  absent : w.tasks[i]? = none → log = []

namespace Heeded

variable {i : Nat} {log : List StopEvent} {w w' : World ρ ε}

theorem fresh (missing : w.tasks[i]? = none) : Heeded i [] w where
  observed before r after split := by simp at split
  pending t found := by
    rw [missing] at found
    cases found
  absent _ := rfl

theorem congr (heeded : Heeded i log w) (same : w'.tasks[i]? = w.tasks[i]?) : Heeded i log w' where
  observed := heeded.observed
  pending := by
    rw [same]
    exact heeded.pending
  absent := by
    rw [same]
    exact heeded.absent

theorem update (heeded : Heeded i log w) (task : Nat) {change : Task ρ → Task ρ}
    (cancel : ∀ t, (change t).cancel = t.cancel)
    (ended : ∀ t, w.tasks[task]? = some t → t.isDone = true → (change t).isDone = true) :
    Heeded i log (w.updateTask task change) := by
  by_cases here : task = i
  · subst here
    refine ⟨heeded.observed, ?_, ?_⟩
    · intro t' found' open_task
      simp only [World.updateTask, List.getElem?_modify, ↓reduceIte, Option.map_eq_map,
        Option.map_eq_some_iff] at found'
      obtain ⟨t, found, rfl⟩ := found'
      rw [cancel t]
      refine heeded.pending t found ?_
      cases done : t.isDone with
      | false => rfl
      | true => rw [ended t found done] at open_task; cases open_task
    · intro missing
      simp [World.updateTask] at missing
      exact heeded.absent (by simpa using missing)
  · exact heeded.congr (by simp [World.updateTask, here])

theorem request (heeded : Heeded i log w) {t : Task ρ} (found : w.tasks[i]? = some t)
    (q : CancelReason) :
    Heeded i (log ++ [.requested q (w.cancel i q).1]) (w.cancel i q).2 := by
  have after : (w.cancel i q).2.tasks[i]? = some (t.requestCancel q).2 := by
    simp [World.cancel, World.updateTask, found]
  have answer : (w.cancel i q).1 = (t.requestCancel q).1 := by
    simp [World.cancel, found]
  refine ⟨?_, ?_, ?_⟩
  · intro before r later split
    rcases append_singleton_split split with ⟨rest, earlier⟩ | ⟨-, other⟩
    · exact heeded.observed before r rest earlier
    · cases other
  · intro t' found' open_task
    rw [after] at found'
    obtain rfl := Option.some.inj found'
    cases done : t.isDone with
    | true => simp [Task.requestCancel, done] at open_task
    | false =>
      obtain ⟨accepted, sum⟩ := heeded.pending t found done
      have taken : (t.requestCancel q).1 = true := by simp [Task.requestCancel, done]
      have recorded : (t.requestCancel q).2.cancel =
          some ((t.cancel.map (·.strengthen q)).getD q) := by
        cases cancel : t.cancel <;> simp [Task.requestCancel, done, cancel]
      rw [answer, taken, requests_append, recorded]
      exact ⟨accepted.request q, sum.request q⟩
  · intro missing
    rw [after] at missing
    cases missing

theorem observe (heeded : Heeded i log w) {t : Task ρ} (found : w.tasks[i]? = some t)
    (open_task : t.isDone = false) {r : CancelReason} (recorded : t.cancel = some r) :
    Heeded i (log ++ [.observed r]) w := by
  obtain ⟨accepted, sum⟩ := heeded.pending t found open_task
  rw [recorded] at sum
  refine ⟨?_, ?_, ?_⟩
  · intro before r' later split
    rcases append_singleton_split split with ⟨rest, earlier⟩ | ⟨rfl, own⟩
    · exact heeded.observed before r' rest earlier
    · cases own
      exact ⟨accepted, sum⟩
  · intro t' found' _
    obtain rfl := Option.some.inj (found.symm.trans found')
    rw [requests_append, recorded]
    refine ⟨accepted.observation r, ?_⟩
    rw [show requests [.observed r] = [] from rfl, List.append_nil]
    exact sum
  · intro missing
    rw [found] at missing
    cases missing

end Heeded

theorem Task.poll_cancel (t : Task ρ) (latches : List Bool) (now : Nat) :
    (t.poll latches now).2.cancel = t.cancel := by
  have alike := t.poll_alike latches now
  generalize (t.poll latches now).2 = asked at alike
  cases alike
  rfl

theorem Task.settle_cancel (t : Task ρ) (settlement : Settlement ρ) :
    (t.settle settlement).2.cancel = t.cancel := by
  cases settlement <;> rfl

theorem stopping_upholds (i : Nat) :
    (Notary.stopping i : Notary ρ ε StopEvent).Upholds (Heeded i) where
  still heeded tasks _ := heeded.congr (by rw [tasks])
  created {log w} entry classifier heeded := by
    cases found : w.tasks[i]? with
    | some t =>
      have old : i < w.tasks.length := (List.getElem?_eq_some_iff.mp found).1
      exact heeded.congr (by simp [World.addTask, List.getElem?_append_left old])
    | none =>
      obtain rfl := heeded.absent found
      refine ⟨heeded.observed, ?_, fun _ => rfl⟩
      intro t found' _
      rcases World.addTask_cases found' with old | rfl
      · rw [found] at old
        cases old
      · exact ⟨fun _ _ member => absurd member List.not_mem_nil, rfl⟩
  asked {log w} task heeded := by
    have read : Heeded i log w.readClock.2 := heeded.congr rfl
    exact read.update task (fun t => t.poll_cancel _ _) fun t _ done =>
      (t.poll_isDone _ _).trans done
  cancelled {log w} task reason heeded := by
    unfold Notary.stopping
    dsimp only
    split
    · next here =>
      obtain ⟨rfl, present⟩ := here
      obtain ⟨t, found⟩ := Option.isSome_iff_exists.mp present
      exact heeded.request found reason
    · next elsewhere =>
      rw [List.append_nil]
      refine heeded.congr ?_
      by_cases here : task = i
      · subst here
        have missing : w.tasks[task]? = none := by simpa using elsewhere
        simp [World.cancel, World.updateTask, missing]
      · simp [World.cancel, World.updateTask, here]
  watched {log cx} op work := by
    unfold Notary.stopping
    dsimp only
    split
    · next own =>
      cases tells : cx.told op with
      | none =>
        rw [Option.toList_none, List.map_nil, List.append_nil]
        exact work.holds
      | some r =>
        obtain ⟨t, found, running⟩ := work.flight
        rw [own] at found
        have recorded := Context.cancelRequest_of_told tells
        rw [Context.cancelRequest, World.cancelOf, own, found, Option.bind_some] at recorded
        have open_task : t.isDone = false := by simp [Task.isDone_eq, running]
        exact work.holds.observe found open_task recorded
    · rw [List.append_nil]
      exact work.holds
  started {log w task cx} heeded entered := by
    have untold := World.toldUnstarted_of_entered entered
    rw [Notary.stopping_untold untold, List.append_nil, World.entry_world entered]
    refine heeded.update task (fun _ => rfl) ?_
    intro t found done
    rw [World.not_done_of_entered entered found] at done
    cases done
  refused {log w task} sound heeded unentered execute := by
    cases tells : w.toldUnstarted task with
    | none =>
      rw [Notary.stopping_untold tells, List.append_nil,
        World.runTask_of_neither sound unentered tells]
      exact heeded
    | some r =>
      -- Asked to stop before its first run, the task is told as the run concludes it.
      obtain ⟨t, found, new, recorded⟩ := World.toldUnstarted_eq_some tells
      have noted : Heeded i (log ++ (Notary.stopping i : Notary ρ ε StopEvent).run w task) w := by
        unfold Notary.stopping
        dsimp only
        split
        · next own =>
          subst own
          rw [tells]
          exact heeded.observe found (by simp [Task.isDone_eq, new]) recorded
        · rw [List.append_nil]
          exact heeded
      rw [World.runTask_of_unstarted found new recorded]
      exact noted.update task (fun _ => rfl) fun _ _ _ => rfl
  settled {log w task} entry settlement heeded flight := by
    refine heeded.update task (fun t => Task.settle_cancel _ settlement) ?_
    intro t found done
    obtain ⟨t', found', running⟩ := flight
    obtain rfl := Option.some.inj (found.symm.trans found')
    simp [Task.isDone_eq, running] at done

namespace World

variable {i : Nat} {log : List StopEvent} {w : World ρ ε}

theorem outcome_of_observed (sound : w.Sound) (heeded : Heeded i log w) {enter : ρ → Script ρ ε}
    {depth : Nat} {cx : Context ρ ε} (entered : w.entry i = some cx) {r : CancelReason}
    (ended : (Script.execute enter depth cx).1 = .unwound (.cancelled r))
    {before after : List StopEvent}
    (noted : (Notary.stopping i).executeNotes enter depth cx = before ++ .observed r :: after) :
    (w.runTask (Script.execute enter depth) i).1 = .done ∧
      (w.runTask (Script.execute enter depth) i).2.tasks[i]?.bind Task.exit =
        some (.cancelled r) ∧
      Accepted (log ++ before) ∧ Strongest (requests (log ++ before)) r := by
  have upholds : (Notary.stopping i : Notary ρ ε StopEvent).Upholds (Heeded i) :=
    stopping_upholds i
  obtain ⟨ran, same⟩ := Script.execute_carries upholds enter depth cx _
    (entry_atWork upholds sound heeded entered)
  have unnoted := Notary.stopping_untold (toldUnstarted_of_entered entered) i
  obtain ⟨t, found, -⟩ := ran.flight
  rw [same, (entry_flight entered).1] at found
  have observed := ran.holds.observed (log ++ before) r after (by simp [unnoted, noted])
  rw [runTask_entered entered]
  simp only [ended, Settlement.ofEnding]
  refine ⟨rfl, ?_, observed⟩
  simp [updateTask, found, Task.settle, Task.conclude]

theorem cancel_repeated {t : Task ρ} (found : w.tasks[i]? = some t) (open_task : t.isDone = false)
    {requested : List CancelReason} (sum : SumOf requested t.cancel) {q : CancelReason}
    (member : q ∈ requested) : w.cancel i q = (true, w) := by
  cases recorded : t.cancel with
  | none =>
    rw [recorded] at sum
    obtain rfl : requested = [] := sum
    cases member
  | some r =>
    rw [recorded] at sum
    have kept : r.strengthen q = r := congrArg Prod.snd (Strongest.repeated sum member)
    have unchanged : t.requestCancel q = (true, t) := by
      have same : { t with cancel := some r } = t := by rw [← recorded]
      simp only [Task.requestCancel, open_task, recorded, kept, same, Bool.false_eq_true, if_false]
    have same : w.updateTask i (fun t => (t.requestCancel q).2) = w := by
      rw [updateTask_found found, unchanged]
      exact updateTask_same found
    simp only [cancel, found, Option.map_some, unchanged, Option.getD_some, same]

theorem outcome_of_unstarted {t : Task ρ} (found : w.tasks[i]? = some t)
    (settled : t.Settled) (open_task : t.isDone = false) {requested : List CancelReason}
    (sum : SumOf requested t.cancel) (unentered : w.entry i = none)
    (execute : Context ρ ε → Ending α × Context ρ ε) :
    ∃ r, Strongest requested r ∧ (w.runTask execute i).1 = .done ∧
      (w.runTask execute i).2.tasks[i]?.bind Task.exit = some (.cancelled r) := by
  rcases Task.Sound.admission_cases (.inl settled) with ⟨running, -⟩ | ⟨done, -⟩ |
    ⟨-, reason, admitted⟩ | ⟨-, -, frames, admitted⟩
  · exact absurd running settled.not_running
  · simp [Task.isDone_eq, done] at open_task
  · have told : w.toldUnstarted i = some reason := by simp [toldUnstarted, found, admitted]
    obtain ⟨t', found', new, recorded⟩ := toldUnstarted_eq_some told
    obtain rfl := Option.some.inj (found.symm.trans found')
    rw [recorded] at sum
    rw [runTask_of_unstarted found new recorded]
    exact ⟨reason, sum, rfl, by simp [updateTask, found, Task.conclude]⟩
  · simp [entry, found, admitted] at unentered

/-- Requests to stop a task add up through every history of a scheduler, in which they may come from
the owner or from any routine. Up to each observation all of them were accepted, and the routine is
told the strongest kind with its first message. As long as the task is not done the same holds of
what is recorded, and a request that was made before is accepted and changes nothing. A task that is
not entered for its request, or that ends by the reason it was told of, has it for its outcome. What
requests come to is the same however they are grouped. -/
theorem requests_accumulate_to_the_strongest (w : World ρ ε) (settings : Settings)
    (choice : ClassifierChoice) (calls : List (SchedulerCall ρ ε)) {past : World ρ ε}
    (served : ({ w with tasks := [] }.openScheduler settings choice).serveAll calls = some past)
    (i : Nat) :
    let notes : Notary ρ ε StopEvent := .stopping i
    let log := notes.historyNotes ({ w with tasks := [] }.openScheduler settings choice) calls
    (∀ before r after, log = before ++ .observed r :: after →
      Accepted before ∧ Strongest (requests before) r) ∧
    (∀ t, past.tasks[i]? = some t → t.isDone = false →
      Accepted log ∧ SumOf (requests log) t.cancel ∧
      (∀ q ∈ requests log, past.cancel i q = (true, past)) ∧
      ∀ (enter : ρ → Script ρ ε) (depth : Nat),
        let execute := Script.execute enter depth
        let ran := past.runTask execute i
        let exit := ran.2.tasks[i]?.bind Task.exit
        (past.entry i = none →
          ∃ r, Strongest (requests log) r ∧ ran.1 = .done ∧ exit = some (.cancelled r)) ∧
        ∀ cx r before after, past.entry i = some cx → (execute cx).1 = .unwound (.cancelled r) →
          notes.executeNotes enter depth cx = before ++ .observed r :: after →
          ran.1 = .done ∧ exit = some (.cancelled r) ∧ Accepted (log ++ before) ∧
            Strongest (requests (log ++ before)) r) ∧
    (∀ first later, Strongest (first :: later) (later.foldl strengthen first)) ∧
    (∀ a b c : CancelReason, a.strengthen (b.strengthen c) = (a.strengthen b).strengthen c) ∧
    (∀ r q : CancelReason, (r.strengthening q).1 = true ↔ r.strengthen q ≠ r) ∧
    ∀ requested r s, Strongest requested r → Strongest requested s → r = s := by
  intro notes log
  have opened : ({ w with tasks := [] }.openScheduler settings choice).Idle := idle_of_empty w
  have begun : Heeded i []
      (({ w with tasks := [] } : World ρ ε).openScheduler settings choice) := .fresh rfl
  have heeded : Heeded i log past := history_carries (stopping_upholds i) opened rfl begun served
  obtain ⟨idle, -⟩ := serveAll_settles opened rfl calls served
  refine ⟨heeded.observed, ?_, fun first later => (Strongest.single first).foldl later,
    strengthen_assoc, strengthening_changes_iff, fun _ _ _ => Strongest.unique⟩
  intro t found open_task
  obtain ⟨accepted, sum⟩ := heeded.pending t found open_task
  refine ⟨accepted, sum, fun q member => cancel_repeated found open_task sum member, ?_⟩
  intro enter depth execute ran exit
  constructor
  · intro unentered
    exact outcome_of_unstarted found (idle i t found) open_task sum unentered execute
  · intro cx r before after entered ended noted
    exact outcome_of_observed idle.sound heeded entered ended noted

end World

def stopsSuspended : List (SchedulerCall Errand Nat) :=
  [.onTask (.create .yields 0), .onTask (.run 0 Errand.script 1),
    .onTask (.cancel 0 ⟨.user, some "stop"⟩), .onTask (.cancel 0 ⟨.timeout, none⟩),
    .onTask (.cancel 0 ⟨.timeout, some "late"⟩), .onTask (.cancel 0 ⟨.user, some "again"⟩)]

theorem suspended_task_heeds_the_strongest :
    ∃ past, (({ tasks := [], scheduler := default } : World Errand Nat).openScheduler (.standard 1)
        (.given 0)).serveAll stopsSuspended = some past ∧
      past.cancel 0 ⟨.user, some "stop"⟩ = (true, past) ∧
      (past.runTask (Script.execute Errand.script 1) 0).2.tasks[0]?.bind Task.exit =
        some (.cancelled ⟨.timeout, some "late"⟩) := by
  have evaluated : ((({ tasks := [], scheduler := default } : World Errand Nat).openScheduler
      (.standard 1) (.given 0)).serveAll stopsSuspended).bind (fun past =>
        past.tasks[0]?.bind fun t => (past.entry 0).map fun cx =>
          (t.isDone, (Script.execute Errand.script 1 cx).1,
            (Notary.stopping 0).executeNotes Errand.script 1 cx)) =
      some (false, .unwound (.cancelled ⟨.timeout, some "late"⟩),
        [.observed ⟨.timeout, some "late"⟩]) := by
    decide +kernel
  obtain ⟨past, served, shown⟩ := Option.bind_eq_some_iff.mp evaluated
  obtain ⟨t, found, shown⟩ := Option.bind_eq_some_iff.mp shown
  obtain ⟨cx, entered, shown⟩ := Option.map_eq_some_iff.mp shown
  obtain ⟨open_task, shown⟩ := Prod.mk.inj shown
  obtain ⟨ended, noted⟩ := Prod.mk.inj shown
  obtain ⟨-, pending, -⟩ := World.requests_accumulate_to_the_strongest { scheduler := default }
    (.standard 1) (.given 0) stopsSuspended served 0
  obtain ⟨-, -, repeated, runs⟩ := pending t found open_task
  obtain ⟨-, outcome, -⟩ := (runs Errand.script 1).2 cx _ [] [] entered ended noted
  exact ⟨past, served, repeated _ (by decide +kernel), outcome⟩

end ResumableTasks
