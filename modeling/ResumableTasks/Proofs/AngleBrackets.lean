import ResumableTasks.CallSite.Symbol
import ResumableTasks.Proofs.SeparatedText
/-!
Angle brackets in symbols, told by counting. What stands inside brackets is passed over by the
removal of generic arguments and by the search for the end of a qualifier, whatever it is, as long
as one bracket stays open; a bracket that closes nothing is kept.
-/
namespace ResumableTasks.Symbol

open Text

variable {depth : Nat} {cs args front rest kept : List Char} {c : Char}

def depthAfter (depth : Nat) (c : Char) : Nat :=
  if c = '<' then depth + 1 else if c = '>' then depth - 1 else depth

def openBrackets (cs : List Char) : Nat := cs.foldl depthAfter 0

/-- With `depth` brackets open before the text, one stays open all through it. -/
def StaysOpen (depth : Nat) (cs : List Char) : Prop :=
  ∀ front, front <+: cs → front.count '>' < depth + front.count '<'

structure Balanced (cs : List Char) : Prop where
  even : cs.count '<' = cs.count '>'
  nested : ∀ front, front <+: cs → front.count '>' ≤ front.count '<'

def Bracketless (cs : List Char) : Prop := ∀ c ∈ cs, c ≠ '<' ∧ c ≠ '>'

instance (cs : List Char) : Decidable (Bracketless cs) :=
  List.decidableBAll (fun c => c ≠ '<' ∧ c ≠ '>') cs

theorem StaysOpen.within (opened : StaysOpen depth cs) (within : front <+: cs) :
    StaysOpen depth front := fun x first => opened x (first.trans within)

theorem staysOpen_cons_iff :
    StaysOpen depth (c :: cs) ↔
      0 < depth ∧ (c = '>' → 1 < depth) ∧ StaysOpen (depthAfter depth c) cs := by
  unfold depthAfter
  constructor
  · intro opened
    have start : 0 < depth := by simpa using opened [] List.nil_prefix
    have first := opened [c] (by simp)
    refine ⟨start, ?_, ?_⟩
    · rintro rfl
      simpa using first
    · intro front within
      have later := opened (c :: front) (List.cons_prefix_cons.mpr ⟨rfl, within⟩)
      simp only [List.count_cons, beq_iff_eq] at later
      split_ifs at later ⊢ <;> omega
  · rintro ⟨start, closes, opened⟩ (_ | ⟨d, front⟩) within
    · simpa using start
    · obtain ⟨rfl, tail⟩ := List.cons_prefix_cons.mp within
      have later := opened front tail
      simp only [List.count_cons, beq_iff_eq]
      split_ifs at later ⊢ <;> grind

theorem depthAfter_pos (start : 0 < depth) (closes : c = '>' → 1 < depth) :
    0 < depthAfter depth c := by
  unfold depthAfter
  split_ifs with opening closing
  · omega
  · have several := closes closing
    omega
  · exact start

theorem depthAfter_add (start : 0 < depth) (c : Char) (cs : List Char) :
    depthAfter depth c + cs.count '<' + (c :: cs).count '>' =
      depth + (c :: cs).count '<' + cs.count '>' := by
  unfold depthAfter
  by_cases opening : c = '<'
  · subst opening
    simp
    omega
  · by_cases closing : c = '>'
    · subst closing
      simp
      omega
    · simp [opening, closing]

theorem StaysOpen.foldl_depthAfter (opened : StaysOpen depth cs) :
    cs.foldl depthAfter depth + cs.count '>' = depth + cs.count '<' := by
  induction cs generalizing depth with
  | nil => rfl
  | cons c cs ih =>
    obtain ⟨start, -, later⟩ := staysOpen_cons_iff.mp opened
    have counts := ih later
    have depths := depthAfter_add start c cs
    rw [List.foldl_cons]
    omega

theorem Balanced.staysOpen (balanced : Balanced cs) : StaysOpen 1 cs := fun front within => by
  have nested := balanced.nested front within
  omega

theorem Balanced.foldl_depthAfter (balanced : Balanced cs) : cs.foldl depthAfter 1 = 1 := by
  have counts := balanced.staysOpen.foldl_depthAfter
  have even := balanced.even
  omega

theorem Bracketless.count_eq_zero (free : Bracketless cs) :
    cs.count '<' = 0 ∧ cs.count '>' = 0 :=
  ⟨List.count_eq_zero.mpr fun among => (free _ among).1 rfl,
    List.count_eq_zero.mpr fun among => (free _ among).2 rfl⟩

theorem Bracketless.append (first : Bracketless front) (second : Bracketless rest) :
    Bracketless (front ++ rest) := fun c among => by
  rcases List.mem_append.mp among with here | there
  · exact first c here
  · exact second c there

theorem Bracketless.balanced (free : Bracketless cs) : Balanced cs where
  even := by rw [free.count_eq_zero.1, free.count_eq_zero.2]
  nested front within := by
    have unclosed : front.count '>' = 0 :=
      List.count_eq_zero.mpr fun among => (free _ (within.subset among)).2 rfl
    omega

theorem Balanced.append (first : Balanced front) (second : Balanced rest) :
    Balanced (front ++ rest) where
  even := by rw [List.count_append, List.count_append, first.even, second.even]
  nested x within := by
    obtain ⟨y, whole⟩ := within
    rcases List.append_eq_append_iff.mp whole with ⟨z, rfl, -⟩ | ⟨z, rfl, rfl⟩
    · exact first.nested x (List.prefix_append x z)
    · have nested := second.nested z (List.prefix_append z y)
      have even := first.even
      rw [List.count_append, List.count_append]
      omega

theorem Balanced.group (inner : Balanced args) : Balanced ('<' :: (args ++ ['>'])) where
  even := by simp [inner.even]
  nested x within := by
    cases x with
    | nil => simp
    | cons c x =>
      obtain ⟨rfl, tail⟩ := List.cons_prefix_cons.mp within
      rcases List.prefix_concat_iff.mp tail with rfl | inside
      · simp [inner.even]
      · have nested := inner.nested x inside
        simp
        omega

/-! ### Removal of generic arguments -/

theorem outsideGenerics_cons (kept : List Char) (depth : Nat) (c : Char) (cs : List Char) :
    outsideGenerics kept depth (c :: cs) =
      outsideGenerics (outsideGenerics kept depth [c]) (depthAfter depth c) cs := by
  unfold depthAfter
  simp only [outsideGenerics]
  split_ifs <;> simp_all

theorem outsideGenerics_append (kept : List Char) (depth : Nat) (front rest : List Char) :
    outsideGenerics kept depth (front ++ rest) =
      outsideGenerics (outsideGenerics kept depth front) (front.foldl depthAfter depth) rest := by
  induction front generalizing kept depth with
  | nil => rfl
  | cons c front ih =>
    rw [List.cons_append, outsideGenerics_cons, ih, outsideGenerics_cons kept depth c front,
      List.foldl_cons]

/-- What stands under a bracket that stays open goes away. -/
theorem outsideGenerics_open (opened : StaysOpen depth args) (kept : List Char) :
    outsideGenerics kept depth args = kept := by
  induction args generalizing depth with
  | nil => rfl
  | cons c args ih =>
    obtain ⟨start, -, later⟩ := staysOpen_cons_iff.mp opened
    have one : outsideGenerics kept depth [c] = kept := by
      have some_open : depth ≠ 0 := by omega
      simp [outsideGenerics, some_open]
    rw [outsideGenerics_cons, one, ih later]

theorem outsideGenerics_closed (balanced : Balanced args) (kept cs : List Char) :
    outsideGenerics kept 1 (args ++ '>' :: cs) = outsideGenerics kept 0 cs := by
  rw [outsideGenerics_append, outsideGenerics_open balanced.staysOpen,
    balanced.foldl_depthAfter]
  rfl

theorem outsideGenerics_bracket (kept cs : List Char) :
    outsideGenerics kept 0 ('<' :: cs) = outsideGenerics (dropColonsBack kept) 1 cs := rfl

theorem outsideGenerics_bracketless (free : Bracketless front) (kept cs : List Char) :
    outsideGenerics kept 0 (front ++ cs) = outsideGenerics (front.reverse ++ kept) 0 cs := by
  induction front generalizing kept with
  | nil => rfl
  | cons c front ih =>
    obtain ⟨opening, closing⟩ := free c (by simp)
    have later : Bracketless front := fun other among => free other (by simp [among])
    rw [List.cons_append, outsideGenerics, if_neg opening, if_neg fun both => closing both.1,
      if_pos rfl, ih later]
    simp

theorem dropColonsBack_solid (solid : kept.head? ≠ some ':') : dropColonsBack kept = kept := by
  unfold dropColonsBack
  split
  · simp at solid
  · rfl

theorem count_dropColonsBack (kept : List Char) :
    (dropColonsBack kept).count '>' = kept.count '>' := by
  unfold dropColonsBack
  split
  · simp
  · rfl

theorem count_outsideGenerics (kept : List Char) (depth : Nat) (cs : List Char) :
    kept.count '>' + cs.count '>' ≤
      (outsideGenerics kept depth cs).count '>' + cs.count '<' + depth := by
  -- A closing bracket that goes away is paid for by an opening one or by the depth.
  induction cs generalizing kept depth with
  | nil => simp [outsideGenerics]
  | cons c cs ih =>
    rw [outsideGenerics]
    split
    · next opening =>
      subst opening
      have later := ih (if depth = 0 then dropColonsBack kept else kept) (depth + 1)
      have same : (if depth = 0 then dropColonsBack kept else kept).count '>' =
          kept.count '>' := by
        split
        · exact count_dropColonsBack kept
        · rfl
      rw [same] at later
      simp only [List.count_cons_self, List.count_cons_of_ne (show '<' ≠ '>' by decide)]
      omega
    · next unopened =>
      split
      · next closing =>
        obtain ⟨rfl, positive⟩ := closing
        have later := ih kept (depth - 1)
        simp only [List.count_cons_self, List.count_cons_of_ne (show '>' ≠ '<' by decide)]
        omega
      · next other =>
        split
        · next outside =>
          subst outside
          have later := ih (c :: kept) 0
          rw [List.count_cons] at later
          rw [List.count_cons, List.count_cons_of_ne unopened]
          omega
        · next inside =>
          have closing : c ≠ '>' := fun same => other ⟨same, by omega⟩
          have later := ih kept depth
          rw [List.count_cons_of_ne closing, List.count_cons_of_ne unopened]
          exact later

/-! ### The end of a qualifier -/

theorem closes_inner (unended : ¬ (c = '>' ∧ depth ≤ 1)) (closing : c = '>') : 1 < depth := by
  by_contra last
  exact unended ⟨closing, by omega⟩

theorem splitQualifier?_open (opened : StaysOpen depth args) (cs : List Char) :
    splitQualifier? depth (args ++ cs) =
      (splitQualifier? (args.foldl depthAfter depth) cs).map
        fun (inside, rest) => (args ++ inside, rest) := by
  induction args generalizing depth with
  | nil => simp
  | cons c args ih =>
    obtain ⟨start, closes, later⟩ := staysOpen_cons_iff.mp opened
    have unended : ¬ (c = '>' ∧ depth ≤ 1) := fun ended => by
      have several := closes ended.1
      omega
    rw [List.cons_append, splitQualifier?, if_neg unended]
    change (splitQualifier? (depthAfter depth c) (args ++ cs)).map _ = _
    rw [ih later, Option.map_map]
    rfl

/-- A qualifier ends at the first bracket that closes more than was opened in it. -/
theorem splitQualifier?_balanced (balanced : Balanced args) (cs : List Char) :
    splitQualifier? 1 (args ++ '>' :: cs) = some (args, cs) := by
  rw [splitQualifier?_open balanced.staysOpen, balanced.foldl_depthAfter]
  simp [splitQualifier?]

theorem staysOpen_of_splitQualifier? (start : 0 < depth)
    (ended : splitQualifier? depth cs = some (front, rest)) :
    cs = front ++ '>' :: rest ∧ StaysOpen depth front ∧
      depth + front.count '<' = front.count '>' + 1 := by
  induction cs generalizing depth front with
  | nil => simp [splitQualifier?] at ended
  | cons c cs ih =>
    rw [splitQualifier?] at ended
    split at ended
    · next last =>
      obtain ⟨rfl, last⟩ := last
      cases ended
      refine ⟨rfl, fun x within => ?_, by simp; omega⟩
      obtain rfl := List.prefix_nil.mp within
      simpa using start
    · next unended =>
      change (splitQualifier? (depthAfter depth c) cs).map _ = _ at ended
      simp only [Option.map_eq_some_iff, Prod.mk.injEq] at ended
      obtain ⟨⟨inside, tail⟩, found, rfl, rfl⟩ := ended
      have closes := closes_inner unended
      obtain ⟨rfl, later, even⟩ := ih (depthAfter_pos start closes) found
      refine ⟨rfl, staysOpen_cons_iff.mpr ⟨start, closes, later⟩, ?_⟩
      have depths := depthAfter_add start c inside
      change depth + (c :: inside).count '<' = (c :: inside).count '>' + 1
      omega

theorem balanced_of_splitQualifier? (ended : splitQualifier? 1 cs = some (front, rest)) :
    cs = front ++ '>' :: rest ∧ Balanced front := by
  obtain ⟨whole, opened, even⟩ := staysOpen_of_splitQualifier? (by omega) ended
  refine ⟨whole, by omega, fun x within => ?_⟩
  have nested := opened x within
  omega

theorem staysOpen_of_unended (start : 0 < depth) (unended : splitQualifier? depth cs = none) :
    StaysOpen depth cs := by
  induction cs generalizing depth with
  | nil =>
    intro x within
    obtain rfl := List.prefix_nil.mp within
    simpa using start
  | cons c cs ih =>
    rw [splitQualifier?] at unended
    split at unended
    · cases unended
    · next more =>
      have closes := closes_inner more
      rw [Option.map_eq_none_iff] at unended
      have later := ih (depthAfter_pos start closes) unended
      exact staysOpen_cons_iff.mpr ⟨start, closes, later⟩

end ResumableTasks.Symbol
