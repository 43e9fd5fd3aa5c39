import ResumableTasks.Proofs.DecoratedSymbol
/-!
Symbols that name a type and one of its traits. The path they are read under should be that of the
type, or that of the trait where the type has none. Type and trait are told apart by their text: by
the first ` as `, and by counting brackets. Both look-alikes may stand in generic arguments.
-/
namespace ResumableTasks.Symbol

open Text

/-- The text of a type or a trait: brackets are matched, but for those of the arrows in function
types. What stands in brackets are generic arguments. -/
inductive TypeText where
  | done
  | char (c : Char) (plain : c ≠ '<' ∧ c ≠ '>') (rest : TypeText)
  | arrow (rest : TypeText)
  | group (args rest : TypeText)

def asWord : List Char := " as ".toList

theorem asWord_bracketless : Bracketless asWord := by decide

namespace TypeText

def text : TypeText → List Char
  | done => []
  | char c _ rest => c :: rest.text
  | arrow rest => '-' :: '>' :: rest.text
  | group args rest => '<' :: (args.text ++ '>' :: rest.text)

/-- The text with the brackets of generic arguments, but nothing in them. -/
def outline : TypeText → List Char
  | done => []
  | char c _ rest => c :: rest.outline
  | arrow rest => '-' :: '>' :: rest.outline
  | group _ rest => '<' :: '>' :: rest.outline

def arrows : TypeText → Nat
  | done => 0
  | char _ _ rest => rest.arrows
  | arrow rest => rest.arrows + 1
  | group args rest => args.arrows + rest.arrows

def bareOnto (kept : List Char) : TypeText → List Char
  | done => kept
  | char c _ rest => rest.bareOnto (c :: kept)
  | arrow rest => rest.bareOnto ('>' :: '-' :: kept)
  | group _ rest => rest.bareOnto (dropColonsBack kept)

def bare (t : TypeText) : List Char := (t.bareOnto []).reverse

def beforeAsOnto (kept : List Char) : TypeText → List Char
  | done => kept
  | char c _ rest => rest.beforeAsOnto (c :: kept)
  | arrow rest => rest.beforeAsOnto ('>' :: '-' :: kept)
  | group args rest =>
    if occurs asWord args.text then dropColonsBack kept else rest.beforeAsOnto (dropColonsBack kept)

def beforeAs (t : TypeText) : List Char := (t.beforeAsOnto []).reverse

def after (rest : TypeText) : (cs : List Char) → Bracketless cs → TypeText
  | [], _ => rest
  | c :: cs, free =>
    .char c (free c (by simp)) (rest.after cs fun d among => free d (by simp [among]))

variable {t : TypeText} {p q part kept tail : List Char}

theorem count_text (t : TypeText) : t.text.count '>' = t.text.count '<' + t.arrows := by
  induction t with
  | done => rfl
  | char c plain rest ih =>
    rw [text, arrows, List.count_cons_of_ne plain.1, List.count_cons_of_ne plain.2, ih]
  | arrow rest ih =>
    simp [text, arrows, ih]
    omega
  | group args rest args_ih rest_ih =>
    simp [text, arrows, args_ih, rest_ih]
    omega

theorem balanced_text (straight : t.arrows = 0) : Balanced t.text := by
  induction t with
  | done => exact Bracketless.balanced (by decide)
  | char c plain rest ih =>
    have first : Bracketless [c] := by simpa [Bracketless] using plain
    exact first.balanced.append (ih straight)
  | arrow rest ih => cases straight
  | group args rest args_ih rest_ih =>
    obtain ⟨inner, outer⟩ : args.arrows = 0 ∧ rest.arrows = 0 := by simpa [arrows] using straight
    have whole := (args_ih inner).group.append (rest_ih outer)
    simpa [text] using whole

theorem outsideGenerics_text (straight : t.arrows = 0) (kept cs : List Char) :
    outsideGenerics kept 0 (t.text ++ cs) = outsideGenerics (t.bareOnto kept) 0 cs := by
  induction t generalizing kept with
  | done => rfl
  | char c plain rest ih =>
    rw [text, List.cons_append, outsideGenerics, if_neg plain.1, if_neg fun both => plain.2 both.1,
      if_pos rfl, ih straight, bareOnto]
  | arrow rest ih => cases straight
  | group args rest args_ih rest_ih =>
    obtain ⟨inner, outer⟩ : args.arrows = 0 ∧ rest.arrows = 0 := by simpa [arrows] using straight
    rw [text, List.cons_append, List.append_assoc, List.cons_append, outsideGenerics_bracket,
      outsideGenerics_closed (balanced_text inner), rest_ih outer, bareOnto]

theorem dropGenerics_text (straight : t.arrows = 0) : dropGenerics t.text = t.bare := by
  have whole := outsideGenerics_text straight [] []
  rw [List.append_nil] at whole
  simp [dropGenerics, bare, whole, outsideGenerics]

theorem count_bareOnto (straight : t.arrows = 0) (kept : List Char) :
    (t.bareOnto kept).count '>' = kept.count '>' := by
  induction t generalizing kept with
  | done => rfl
  | char c plain rest ih => rw [bareOnto, ih straight, List.count_cons_of_ne plain.2]
  | arrow rest ih => cases straight
  | group args rest args_ih rest_ih =>
    obtain ⟨-, outer⟩ : args.arrows = 0 ∧ rest.arrows = 0 := by simpa [arrows] using straight
    rw [bareOnto, rest_ih outer, count_dropColonsBack]

theorem not_mem_bare (straight : t.arrows = 0) : '>' ∉ t.bare := by
  have none := count_bareOnto straight []
  rw [List.count_nil, List.count_eq_zero] at none
  simpa [bare] using none

theorem prefix_outline (free : Bracketless part) (lead : part <+: t.text ++ tail) :
    part <+: t.outline ++ tail := by
  induction t generalizing part with
  | done => exact lead
  | char c plain rest ih =>
    cases part with
    | nil => exact List.nil_prefix
    | cons d part =>
      obtain ⟨rfl, later⟩ := List.cons_prefix_cons.mp lead
      have freeLater : Bracketless part := fun e among => free e (by simp [among])
      exact List.cons_prefix_cons.mpr ⟨rfl, ih freeLater later⟩
  | arrow rest ih =>
    match part with
    | [] => exact List.nil_prefix
    | [d] =>
      obtain ⟨rfl, -⟩ := List.cons_prefix_cons.mp lead
      exact List.cons_prefix_cons.mpr ⟨rfl, List.nil_prefix⟩
    | d :: e :: part =>
      obtain ⟨-, later⟩ := List.cons_prefix_cons.mp lead
      obtain ⟨rfl, -⟩ := List.cons_prefix_cons.mp later
      exact absurd rfl (free '>' (by simp)).2
  | group args rest args_ih rest_ih =>
    cases part with
    | nil => exact List.nil_prefix
    | cons d part =>
      obtain ⟨rfl, -⟩ := List.cons_prefix_cons.mp lead
      exact absurd rfl (free '<' (by simp)).1

theorem split_group {a b : List Char} (whole : '<' :: (a ++ '>' :: b) = p ++ asWord ++ q) :
    ∃ x, p = '<' :: x ∧ ((∃ y, a = x ++ asWord ++ y ∧ q = y ++ '>' :: b) ∨
      ∃ z, x = a ++ '>' :: z ∧ b = z ++ asWord ++ q) := by
  rcases split_around (a := []) (by decide) whole with ⟨y, nothing, -⟩ | ⟨x, rfl, later⟩
  · simp [asWord] at nothing
  · exact ⟨x, rfl, split_around (by decide) later⟩

theorem split_arrow {b : List Char} (whole : '-' :: '>' :: b = p ++ asWord ++ q) :
    ∃ z, p = '-' :: '>' :: z ∧ b = z ++ asWord ++ q := by
  rcases split_around (a := ['-']) (by decide) whole with ⟨y, short, -⟩ | found
  · have lengths := congrArg List.length short
    simp [asWord] at lengths
    omega
  · exact found

theorem infix_outline (found : asWord <:+: t.text ++ tail) (ungrouped : ¬ asWord <:+: t.text) :
    asWord <:+: t.outline ++ tail := by
  induction t with
  | done => exact found
  | char c plain rest ih =>
    rw [text, List.infix_cons_iff, not_or] at ungrouped
    rw [text, List.cons_append, List.infix_cons_iff] at found
    rw [outline, List.cons_append, List.infix_cons_iff]
    rcases found with lead | later
    · exact .inl (prefix_outline (t := .char c plain rest) asWord_bracketless lead)
    · exact .inr (ih later ungrouped.2)
  | arrow rest ih =>
    obtain ⟨p, q, whole⟩ := found
    obtain ⟨z, -, later⟩ := split_arrow whole.symm
    have free : ¬ asWord <:+: rest.text := fun inside =>
      ungrouped (inside.trans ⟨['-', '>'], [], by simp [text]⟩)
    exact (ih ⟨z, q, later.symm⟩ free).trans ⟨['-', '>'], [], by simp [outline]⟩
  | group args rest args_ih rest_ih =>
    obtain ⟨p, q, whole⟩ := found
    rw [text, List.cons_append, List.append_assoc args.text, List.cons_append] at whole
    obtain ⟨x, rfl, ⟨y, inside, -⟩ | ⟨z, -, later⟩⟩ := split_group whole.symm
    · exact absurd ⟨'<' :: x, y ++ '>' :: rest.text, by simp [text, inside]⟩ ungrouped
    · have free : ¬ asWord <:+: rest.text := fun inside =>
        ungrouped (inside.trans ⟨'<' :: (args.text ++ ['>']), [], by simp [text]⟩)
      exact (rest_ih ⟨z, q, later.symm⟩ free).trans ⟨['<', '>'], [], by simp [outline]⟩

theorem cut_in_group {args rest x y : List Char} (inner : Balanced args) (outer : Balanced rest)
    (inside : args = x ++ asWord ++ y) (kept : List Char) :
    outsideGenerics kept 0 ('<' :: x) = dropColonsBack kept ∧
      (y ++ '>' :: rest).count '<' < (y ++ '>' :: rest).count '>' := by
  have within : x <+: args := ⟨asWord ++ y, by rw [inside, List.append_assoc]⟩
  constructor
  · rw [outsideGenerics_bracket, outsideGenerics_open (inner.staysOpen.within within)]
  -- Up to the cut no bracket is closed before it is opened, so what follows closes one more.
  · have nested := inner.nested x within
    have even := inner.even
    have evenRest := outer.even
    rw [inside] at even
    simp only [List.count_append, asWord_bracketless.count_eq_zero] at even
    simp only [List.count_append, List.count_cons_self,
      List.count_cons_of_ne (show '>' ≠ '<' by decide)]
    omega

/-- The first ` as ` of a type in whose generic arguments there is one, and none outside: what
stands before it is, without generic arguments, what stands before those, and what stands after it
closes a bracket that it does not open. -/
theorem first_as (straight : t.arrows = 0) (ungrouped : ¬ asWord <:+: t.outline)
    (whole : t.text = p ++ asWord ++ q) (first : ¬ asWord <:+: p) (kept : List Char) :
    outsideGenerics kept 0 p = t.beforeAsOnto kept ∧ q.count '<' < q.count '>' := by
  induction t generalizing p kept with
  | done => simp [text, asWord] at whole
  | char c plain rest ih =>
    rw [outline, List.infix_cons_iff, not_or] at ungrouped
    cases p with
    | nil =>
      have lead : asWord <+: (char c plain rest).text ++ [] :=
        ⟨q, by rw [whole, List.nil_append, List.append_nil]⟩
      have outside := prefix_outline (by decide) lead
      rw [List.append_nil] at outside
      exact absurd outside ungrouped.1
    | cons d p =>
      obtain ⟨rfl, later⟩ := List.cons.inj whole
      have free : ¬ asWord <:+: p := fun inside => first (List.infix_cons inside)
      rw [outsideGenerics, if_neg plain.1, if_neg fun both => plain.2 both.1, if_pos rfl,
        beforeAsOnto]
      exact ih straight ungrouped.2 later free (c :: kept)
  | arrow rest ih => cases straight
  | group args rest args_ih rest_ih =>
    obtain ⟨inner, outer⟩ : args.arrows = 0 ∧ rest.arrows = 0 := by simpa [arrows] using straight
    have balanced := balanced_text inner
    rw [beforeAsOnto]
    obtain ⟨x, rfl, ⟨y, inside, rfl⟩ | ⟨z, rfl, later⟩⟩ := split_group whole
    · have found : asWord <:+: args.text := ⟨x, y, inside.symm⟩
      rw [if_pos (occurs_iff.mpr found)]
      exact cut_in_group balanced (balanced_text outer) inside kept
    · have ungroupedRest : ¬ asWord <:+: rest.outline := fun outside =>
        ungrouped (outside.trans ⟨['<', '>'], [], by simp [outline]⟩)
      have unfound : ¬ asWord <:+: args.text := fun inside =>
        first (inside.trans ⟨['<'], '>' :: z, by simp⟩)
      have free : ¬ asWord <:+: z := fun inside =>
        first (inside.trans ⟨'<' :: (args.text ++ ['>']), [], by simp⟩)
      rw [if_neg (by simpa [occurs_iff] using unfound), outsideGenerics_bracket,
        outsideGenerics_closed balanced]
      exact rest_ih outer ungroupedRest later free _

end TypeText

variable {t r : TypeText} {f : List Char}

def qualified (t r : TypeText) (f : List Char) : List Char :=
  '<' :: (t.text ++ asWord ++ r.text ++ ['>']) ++ colons ++ f

/-- The path that the method belongs under: that of the type, if there is one. -/
def landing (t r : TypeText) : List Char := if occurs colons t.bare then t.bare else r.bare

theorem not_mem_landing (straight : t.arrows = 0) (straight' : r.arrows = 0) :
    '>' ∉ landing t r := by
  unfold landing
  split
  · exact TypeText.not_mem_bare straight
  · exact TypeText.not_mem_bare straight'

theorem count_dropColons {c : Char} (other : ':' ≠ c) (cs : List Char) :
    (dropColons cs).count c = cs.count c := by
  fun_induction dropColons cs with
  | case1 rest ih => simp [other, ih]
  | case2 cs other => rfl

theorem mem_dropGenerics {cs : List Char} (more : cs.count '<' < cs.count '>') :
    '>' ∈ dropGenerics cs := by
  have kept := count_outsideGenerics [] 0 cs
  rw [List.count_nil] at kept
  unfold dropGenerics
  rw [List.mem_reverse, ← List.count_pos_iff]
  omega

theorem qualifier?_of_arrow (arrow : 0 < t.arrows + r.arrows) {tail : List Char}
    (free : Bracketless tail) :
    ∃ inside rest, qualifier? ('<' :: (t.text ++ asWord ++ r.text ++ ['>']) ++ tail) =
      some (inside, rest) ∧ '>' ∈ dropGenerics (dropColons rest) := by
  have closed : (t.text ++ asWord ++ r.text ++ ['>'] ++ tail).count '>' =
      (t.text ++ asWord ++ r.text ++ ['>'] ++ tail).count '<' + t.arrows + r.arrows + 1 := by
    simp only [List.count_append, asWord_bracketless.count_eq_zero, free.count_eq_zero,
      t.count_text, r.count_text]
    simp
    omega
  change ∃ inside rest,
    splitQualifier? 1 (t.text ++ asWord ++ r.text ++ ['>'] ++ tail) = some (inside, rest) ∧ _
  cases ended : splitQualifier? 1 (t.text ++ asWord ++ r.text ++ ['>'] ++ tail) with
  | none =>
    have opened := staysOpen_of_unended (by omega) ended _ List.prefix_rfl
    omega
  | some parts =>
    -- The qualifier found takes as many closing brackets as opening ones, so the arrow's is left.
    obtain ⟨inside, rest⟩ := parts
    obtain ⟨whole, balanced⟩ := balanced_of_splitQualifier? ended
    have even := balanced.even
    rw [whole] at closed
    simp only [List.count_append, List.count_cons_self,
      List.count_cons_of_ne (show '>' ≠ '<' by decide)] at closed
    refine ⟨inside, rest, rfl, mem_dropGenerics ?_⟩
    rw [count_dropColons (by decide), count_dropColons (by decide)]
    omega

theorem dropHash_qualified (plain : Plain f) :
    dropHash (qualified t r f) =
      '<' :: (t.text ++ asWord ++ r.text ++ ['>']) ++ if isHash f then [] else colons ++ f := by
  unfold qualified
  rw [dropHash_segment plain.no_colon]
  split
  · simp
  · rw [List.append_assoc]

theorem qualifier?_straight (straight : t.arrows = 0) (straight' : r.arrows = 0)
    (rest : List Char) :
    qualifier? ('<' :: (t.text ++ asWord ++ r.text ++ ['>']) ++ rest) =
      some (t.text ++ asWord ++ r.text, rest) := by
  exact qualifier?_balanced (((t.balanced_text straight).append asWord_bracketless.balanced).append
    (r.balanced_text straight')) rest

theorem routine_of_qualified (plain : Plain f) :
    (parts (qualified t r f)).2 = f ↔ t.arrows = 0 ∧ r.arrows = 0 ∧ ¬ isHash f := by
  rw [parts_eq, dropHash_qualified plain]
  by_cases straight : t.arrows = 0 ∧ r.arrows = 0
  · rw [qualifier?_straight straight.1 straight.2]
    by_cases hashed : isHash f
    · have lost : dropGenerics (dropColons []) ≠ f := fun same => plain.nonempty same.symm
      simp [hashed, lost]
    · have kept : dropGenerics (dropColons (colons ++ f)) = f := by
        have solid : f.head? ≠ some ':' := by simpa using (plain.begins []).1
        have alone : dropColons (colons ++ f) = f := dropColons_solid solid
        simpa [alone] using dropGenerics_routine plain none
      simp [hashed, kept, straight]
  · have free : Bracketless (if isHash f then [] else colons ++ f) := by
      split
      · decide
      · exact Bracketless.append (by decide) plain.bracketless
    obtain ⟨inside, rest, found, among⟩ := qualifier?_of_arrow (t := t) (r := r) (by omega) free
    have other : dropGenerics (dropColons rest) ≠ f := by
      rintro rfl
      exact (plain.bracketless '>' among).2 rfl
    rw [found]
    exact ⟨fun same => absurd same other, fun both => absurd ⟨both.1, both.2.1⟩ straight⟩

theorem path_of_qualified (straight : t.arrows = 0) (straight' : r.arrows = 0) (plain : Plain f) :
    (parts (qualified t r f)).1 = dropGenerics (owner (t.text ++ asWord ++ r.text)) := by
  rw [parts_eq, dropHash_qualified plain, qualifier?_straight straight straight']

/-- An ` as ` outside the generic arguments of the type stands only between it and the trait. -/
def Apart (t : TypeText) : Prop := ¬ asWord <:+: t.outline ++ asWord.dropLast

instance (t : TypeText) : Decidable (Apart t) :=
  decidable_of_iff (¬ occurs asWord (t.outline ++ asWord.dropLast)) (not_congr occurs_iff)

theorem owner_unmistaken (straight : t.arrows = 0) (straight' : r.arrows = 0) (apart : Apart t)
    (ungrouped : ¬ asWord <:+: t.text) :
    dropGenerics (owner (t.text ++ asWord ++ r.text)) = landing t r := by
  have first : ¬ asWord <:+: t.text ++ asWord.dropLast := fun found =>
    apart (TypeText.infix_outline found ungrouped)
  have cut : splitFirst? " as ".toList (t.text ++ asWord ++ r.text) = some (t.text, r.text) :=
    splitFirst?_append first
  have bare := TypeText.dropGenerics_text straight
  unfold owner landing
  rw [cut]
  simp only [bare]
  split
  · exact bare
  · exact TypeText.dropGenerics_text straight'

theorem owner_mistaken (straight : t.arrows = 0) (straight' : r.arrows = 0) (apart : Apart t)
    (grouped : asWord <:+: t.text) :
    dropGenerics (owner (t.text ++ asWord ++ r.text)) = landing t r ↔
      occurs colons t.beforeAs ∧ t.beforeAs = landing t r := by
  obtain ⟨⟨p, q⟩, cut⟩ := Option.isSome_iff_exists.mp (splitFirst?_isSome grouped)
  have ungrouped : ¬ asWord <:+: t.outline := fun outside =>
    apart (outside.trans (List.prefix_append _ _).isInfix)
  have first : ¬ asWord <:+: p := fun found =>
    not_infix_of_splitFirst? (by decide) cut (found.trans (List.prefix_append _ _).isInfix)
  obtain ⟨before, closes⟩ :=
    TypeText.first_as straight ungrouped (eq_of_splitFirst? cut) first []
  have bare : dropGenerics p = t.beforeAs := by rw [dropGenerics, before, TypeText.beforeAs]
  have whole : splitFirst? " as ".toList (t.text ++ asWord ++ r.text) =
      some (p, q ++ (asWord ++ r.text)) := by
    rw [List.append_assoc]
    exact splitFirst?_append_right (by decide) cut _
  unfold owner
  rw [whole]
  simp only [bare]
  split
  · next found => simp [found, bare]
  · next missing =>
    -- What is taken for the trait keeps a bracket, and no path has one.
    have kept : '>' ∈ dropGenerics (q ++ (asWord ++ r.text)) := by
      have even := (r.balanced_text straight').even
      refine mem_dropGenerics ?_
      simp only [List.count_append, asWord_bracketless.count_eq_zero]
      omega
    have other : dropGenerics (q ++ (asWord ++ r.text)) ≠ landing t r := fun same =>
      not_mem_landing straight straight' (same ▸ kept)
    simp [other, missing]

/-- A method of a type as the implementation of a trait. The symbol is read as that method exactly
if there is no function type in the type or the trait, and the method does not look like a hash.
Then the path it is read under is that of the type, or that of the trait where the type has none,
exactly if there is no ` as ` in generic arguments of the type, or what stands before the first
such arguments is that path already, and has several segments. -/
theorem qualified_symbol_is_read_iff (t r : TypeText) {f : List Char} (plain : Plain f)
    (apart : Apart t) :
    let site := CallSite.ofSymbol (String.ofList (qualified t r f))
    (site.routine = String.ofList f ↔ t.arrows = 0 ∧ r.arrows = 0 ∧ ¬ isHash f) ∧
      (t.arrows = 0 → r.arrows = 0 →
        (site.path = String.ofList (landing t r) ↔
          (asWord <:+: t.text → colons <:+: t.beforeAs ∧ t.beforeAs = landing t r))) := by
  intro site
  have among : ':' ∈ qualified t r f := by simp [qualified, colons]
  have read : site = _ := ofSymbol_of_colon among
  rw [read]
  simp only [String.ofList_inj]
  refine ⟨routine_of_qualified plain, fun straight straight' => ?_⟩
  rw [path_of_qualified straight straight' plain]
  by_cases grouped : asWord <:+: t.text
  · rw [owner_mistaken straight straight' apart grouped, occurs_iff]
    exact ⟨fun both _ => both, fun given => given grouped⟩
  · rw [owner_unmistaken straight straight' apart grouped]
    exact ⟨fun _ found => absurd found grouped, fun _ => rfl⟩

def routineTrait : TypeText := TypeText.done.after "weft::task::Routine".toList (by decide)

def stepsOfOutput : TypeText :=
  let output := TypeText.group (TypeText.done.after "U as X".toList (by decide))
    (TypeText.done.after "::Y".toList (by decide))
  (TypeText.group output .done).after "app::Steps".toList (by decide)

theorem steps_of_output_are_read :
    Apart stepsOfOutput ∧
      let site := CallSite.ofSymbol "<app::Steps<<U as X>::Y> as weft::task::Routine>::execute"
      site.routine = "execute" ∧ site.path = "app::Steps" := by
  have apart : Apart stepsOfOutput := by decide
  have plain : Plain "execute".toList := by decide
  obtain ⟨routine, path⟩ := qualified_symbol_is_read_iff stepsOfOutput routineTrait plain apart
  exact ⟨apart, routine.mpr (by decide),
    (path rfl rfl).mpr fun _ => ⟨occurs_iff.mp (by decide), by decide⟩⟩

def stepsOfFunction : TypeText :=
  let function := (TypeText.arrow (TypeText.done.after " u8".toList (by decide))).after
    "fn(u8) ".toList (by decide)
  (TypeText.group function .done).after "app::Steps".toList (by decide)

def vecOfOutput : TypeText :=
  let output := TypeText.group (TypeText.done.after "U as X".toList (by decide))
    (TypeText.done.after "::Y".toList (by decide))
  (TypeText.group output .done).after "Vec".toList (by decide)

/-- The arrow of a function type is taken for the end of the qualifier, and an ` as ` in generic
arguments for the one before the trait. -/
theorem look_alikes_are_mistaken :
    let function := qualified stepsOfFunction routineTrait "execute".toList
    let output := qualified vecOfOutput routineTrait "execute".toList
    Apart stepsOfFunction ∧ Apart vecOfOutput ∧ Plain "execute".toList ∧
      String.ofList function = "<app::Steps<fn(u8) -> u8> as weft::task::Routine>::execute" ∧
      String.ofList (landing stepsOfFunction routineTrait) = "app::Steps" ∧
      CallSite.ofSymbol (String.ofList function) =
        { path := "app::Steps u8", routine := " as weft::task::Routine>::execute" } ∧
      String.ofList output = "<Vec<<U as X>::Y> as weft::task::Routine>::execute" ∧
      String.ofList (landing vecOfOutput routineTrait) = "weft::task::Routine" ∧
      CallSite.ofSymbol (String.ofList output) =
        { path := "X>::Y> as weft::task::Routine", routine := "execute" } := by
  have plain : Plain "execute".toList := by decide
  exact ⟨by decide, by decide, plain, by decide, by decide, by decide, by decide, by decide,
    by decide⟩

end ResumableTasks.Symbol
