/-!
A compute-once map. The first request of a key runs its initializer, and later requests answer the
kept value. A key takes its place before the initializer runs, so an initializer that panics leaves
the key without a value, and the next request tries again. An initializer may itself request other
keys of the map.
-/
namespace ResumableTasks

structure Memo (κ α : Type) where
  cells : List (κ × Option α) := []
  hits : Nat := 0
  misses : Nat := 0
  deriving DecidableEq, Repr

/-- What computes the value of a key: it answers, panics with a text, or requests another key first
and goes on with its value. -/
inductive Initializer (κ α : Type) where
  | value (a : α)
  | panic (text : String)
  | request (key : κ) (init : Initializer κ α) (next : α → Initializer κ α)

namespace Memo

variable {κ α : Type} [DecidableEq κ]

instance : Inhabited (Memo κ α) := ⟨{}⟩

def get? (m : Memo κ α) (key : κ) : Option α := (m.cells.lookup key).join

def size (m : Memo κ α) : Nat := m.cells.length

def isEmpty (m : Memo κ α) : Bool := m.cells.isEmpty

/-- Gives the key a place without a value, unless it has a place. -/
def reserve (m : Memo κ α) (key : κ) : Memo κ α :=
  if (m.cells.lookup key).isSome then m else { m with cells := m.cells ++ [(key, none)] }

def store (m : Memo κ α) (key : κ) (a : α) : Memo κ α :=
  { m with cells := m.cells.map fun cell => if cell.1 = key then (key, some a) else cell }

def requestWith (m : Memo κ α) (key : κ) (init : Memo κ α → Except String α × Memo κ α) :
    Except String α × Memo κ α :=
  let m := m.reserve key
  match m.get? key with
  | some a => (.ok a, { m with hits := m.hits + 1 })
  | none =>
    match init m with
    | (.ok a, m) => (.ok a, { m.store key a with misses := m.misses + 1 })
    | (.error text, m) => (.error text, m)

def evaluate : Initializer κ α → Memo κ α → Except String α × Memo κ α
  | .value a, m => (.ok a, m)
  | .panic text, m => (.error text, m)
  | .request key init next, m =>
    match m.requestWith key (evaluate init) with
    | (.ok a, m) => evaluate (next a) m
    | (.error text, m) => (.error text, m)

def request (m : Memo κ α) (key : κ) (init : Initializer κ α) : Except String α × Memo κ α :=
  m.requestWith key (evaluate init)

def keep (m : Memo κ α) (key : κ) (a : α) : α × Memo κ α :=
  match m.request key (.value a) with
  | (.ok kept, m) => (kept, m)
  | (.error _, m) => (a, m)

theorem lookup_cons_ite (held key : κ) (value : α) (rest : List (κ × α)) :
    ((held, value) :: rest).lookup key = if key = held then some value else rest.lookup key := by
  by_cases here : key = held
  · simp [here]
  · simp [List.lookup_cons, here, beq_false_of_ne here]

theorem get?_reserve (m : Memo κ α) (key other : κ) :
    (m.reserve key).get? other = m.get? other := by
  simp only [reserve]
  split
  · rfl
  · simp only [get?, List.lookup_append]
    cases m.cells.lookup other with
    | some cell => rfl
    | none =>
      rw [lookup_cons_ite, Option.none_or]
      split <;> rfl

theorem lookup_reserve (m : Memo κ α) (key : κ) :
    ((m.reserve key).cells.lookup key).isSome := by
  simp only [reserve]
  split
  · next placed => exact placed
  · simp [List.lookup_append]

theorem lookup_stored (cells : List (κ × Option α)) (key : κ) (a : α) (other : κ) :
    (cells.map fun cell => if cell.1 = key then (key, some a) else cell).lookup other =
      if other = key then (cells.lookup key).map fun _ => some a else cells.lookup other := by
  induction cells with
  | nil => simp
  | cons cell rest ih =>
    obtain ⟨held, value⟩ := cell
    by_cases here : held = key
    · subst here
      simp only [List.map_cons, ↓reduceIte, lookup_cons_ite, ih, Option.map_some]
      split <;> rfl
    · simp only [List.map_cons, here, ↓reduceIte, lookup_cons_ite, ih, Ne.symm here]
      by_cases sought : other = held
      · simp [sought, here]
      · simp [sought]

theorem get?_store (m : Memo κ α) {key : κ} (placed : (m.cells.lookup key).isSome) (a : α)
    (other : κ) : (m.store key a).get? other = if other = key then some a else m.get? other := by
  simp only [get?, store, lookup_stored]
  split
  · obtain ⟨cell, found⟩ := Option.isSome_iff_exists.mp placed
    simp [found]
  · rfl

theorem reserve_counts (m : Memo κ α) (key : κ) :
    (m.reserve key).hits = m.hits ∧ (m.reserve key).misses = m.misses := by
  simp only [reserve]
  split <;> exact ⟨rfl, rfl⟩

theorem keep_of_some {m : Memo κ α} {key : κ} {kept : α} (held : m.get? key = some kept) (a : α) :
    m.keep key a = (kept, { m.reserve key with hits := (m.reserve key).hits + 1 }) := by
  simp only [keep, request, requestWith, get?_reserve, held]

theorem keep_of_none {m : Memo κ α} {key : κ} (vacant : m.get? key = none) (a : α) :
    m.keep key a =
      (a, { (m.reserve key).store key a with misses := (m.reserve key).misses + 1 }) := by
  simp only [keep, request, requestWith, get?_reserve, vacant, evaluate]

theorem keep_answer (m : Memo κ α) (key : κ) (a : α) :
    (m.keep key a).1 = (m.get? key).getD a := by
  cases held : m.get? key with
  | some kept => rw [keep_of_some held, Option.getD_some]
  | none => rw [keep_of_none held, Option.getD_none]

theorem get?_keep (m : Memo κ α) (key : κ) (a : α) (other : κ) :
    (m.keep key a).2.get? other =
      if other = key then some ((m.get? key).getD a) else m.get? other := by
  cases held : m.get? key with
  | some kept =>
    rw [keep_of_some held, Option.getD_some, ← held]
    have same : (m.reserve key).get? other = m.get? other := m.get?_reserve key other
    split
    · next here => exact here ▸ same
    · exact same
  | none =>
    rw [keep_of_none held, Option.getD_none, ← m.get?_reserve key other]
    exact get?_store _ (m.lookup_reserve key) a other

theorem keep_counts (m : Memo κ α) (key : κ) (a : α) :
    (m.keep key a).2.misses = m.misses + (if (m.get? key).isSome then 0 else 1) ∧
      (m.keep key a).2.hits + (m.keep key a).2.misses = m.hits + m.misses + 1 := by
  obtain ⟨hits, misses⟩ := m.reserve_counts key
  cases held : m.get? key with
  | some kept =>
    rw [keep_of_some held]
    refine ⟨misses, ?_⟩
    show (m.reserve key).hits + 1 + (m.reserve key).misses = _
    omega
  | none =>
    rw [keep_of_none held]
    refine ⟨congrArg (· + 1) misses, ?_⟩
    show (m.reserve key).hits + ((m.reserve key).misses + 1) = _
    omega

end Memo

end ResumableTasks
