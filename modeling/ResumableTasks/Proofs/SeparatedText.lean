import Mathlib.Data.List.Basic
import ResumableTasks.Text.Split
/-!
What cutting a text at a separator finds. A cut at the first occurrence leaves none that begins
further left, a cut at the last one none that begins further right, and either is found as soon as
there is one. Lines that were put together with line feeds come apart again.
-/
namespace ResumableTasks.Text

variable {sep cs before after : List Char}

theorem append_of_not_mem {c : Char} {lead part rest : List Char} (free : c ∉ lead)
    (within : part ++ [c] <+: lead ++ rest) : ∃ x, part = lead ++ x ∧ x ++ [c] <+: rest := by
  rcases List.prefix_or_prefix_of_prefix within (List.prefix_append lead rest) with short | long
  · exact absurd (short.subset (by simp)) free
  · rcases List.prefix_concat_iff.mp long with rfl | ⟨x, rfl⟩
    · simp at free
    · rw [List.append_assoc, List.prefix_append_right_inj] at within
      exact ⟨x, rfl, within⟩

theorem split_around {c : Char} {a b p part q : List Char} (free : c ∉ part)
    (whole : a ++ c :: b = p ++ part ++ q) :
    (∃ y, a = p ++ part ++ y ∧ q = y ++ c :: b) ∨ ∃ x, p = a ++ c :: x ∧ b = x ++ part ++ q := by
  rw [List.append_assoc, List.append_eq_append_iff] at whole
  rcases whole with ⟨x, rfl, same⟩ | ⟨y, rfl, same⟩
  · cases x with
    | nil =>
      cases part with
      | nil => exact .inl ⟨[], by simp, by simpa using same.symm⟩
      | cons d part =>
        obtain ⟨rfl, -⟩ := List.cons.inj same
        exact absurd List.mem_cons_self free
    | cons d x =>
      obtain ⟨rfl, later⟩ := List.cons.inj same
      exact .inr ⟨x, rfl, later.trans (List.append_assoc x part q).symm⟩
  · rcases List.append_eq_append_iff.mp same with ⟨z, rfl, rest⟩ | ⟨z, rfl, rest⟩
    · exact .inl ⟨z, by rw [List.append_assoc], rest⟩
    · cases z with
      | nil => exact .inl ⟨[], by simp, by simpa using rest.symm⟩
      | cons d z =>
        obtain ⟨rfl, -⟩ := List.cons.inj rest
        exact absurd (by simp) free

theorem stripLead?_eq_none_iff : stripLead? sep cs = none ↔ ¬ sep <+: cs := by
  rw [← not_iff_not, not_not, ← ne_eq, Option.ne_none_iff_exists']
  simp only [stripLead?_eq_some_iff]
  constructor
  · rintro ⟨rest, rfl⟩
    exact List.prefix_append sep rest
  · rintro ⟨rest, rfl⟩
    exact ⟨rest, rfl⟩

theorem splitFirst?_of_lead {rest : List Char} (found : stripLead? sep cs = some rest) :
    splitFirst? sep cs = some ([], rest) := by
  cases cs with
  | nil => simp [splitFirst?, found]
  | cons c cs => simp [splitFirst?, found]

theorem splitFirst?_isSome (found : sep <:+: cs) : (splitFirst? sep cs).isSome := by
  obtain ⟨before, after, rfl⟩ := found
  induction before with
  | nil =>
    rw [splitFirst?_of_lead (stripLead?_eq_some_iff.mpr (by rw [List.nil_append]))]
    rfl
  | cons b before ih =>
    rw [List.cons_append, List.cons_append, splitFirst?]
    split
    · rfl
    · rw [Option.isSome_map]
      exact ih

theorem occurs_iff : occurs sep cs = true ↔ sep <:+: cs := by
  constructor
  · intro found
    obtain ⟨⟨before, after⟩, cut⟩ := Option.isSome_iff_exists.mp found
    exact ⟨before, after, (eq_of_splitFirst? cut).symm⟩
  · exact splitFirst?_isSome

/-- The first cut is made where no occurrence begins further left. -/
theorem splitFirst?_append (first : ¬ sep <:+: before ++ sep.dropLast) :
    splitFirst? sep (before ++ sep ++ after) = some (before, after) := by
  induction before with
  | nil => exact splitFirst?_of_lead (stripLead?_eq_some_iff.mpr rfl)
  | cons b before ih =>
    have unled : ¬ sep <+: b :: (before ++ sep ++ after) := by
      intro led
      have front : b :: before ++ sep.dropLast <+: b :: (before ++ sep ++ after) := by
        rw [← List.cons_append, ← List.cons_append, List.append_assoc, List.prefix_append_right_inj]
        exact sep.dropLast_prefix.trans (List.prefix_append sep after)
      have short : sep.length ≤ (b :: before ++ sep.dropLast).length := by
        simp only [List.cons_append, List.length_cons, List.length_append, List.length_dropLast]
        omega
      exact first (List.prefix_of_prefix_length_le led front short).isInfix
    have later : ¬ sep <:+: before ++ sep.dropLast := fun found =>
      first (found.trans (List.suffix_cons b _).isInfix)
    rw [List.cons_append, List.cons_append, splitFirst?, stripLead?_eq_none_iff.mpr unled]
    simp only [ih later]
    rfl

theorem not_infix_of_splitFirst? (nonempty : sep ≠ [])
    (cut : splitFirst? sep cs = some (before, after)) : ¬ sep <:+: before ++ sep.dropLast := by
  have short : ¬ sep <:+: sep.dropLast := by
    intro found
    have bound := found.length_le
    have positive := List.length_pos_of_ne_nil nonempty
    rw [List.length_dropLast] at bound
    omega
  induction cs generalizing before with
  | nil =>
    simp only [splitFirst?, Option.map_eq_some_iff, Prod.mk.injEq] at cut
    obtain ⟨rest, -, rfl, -⟩ := cut
    exact short
  | cons c cs ih =>
    have whole := eq_of_splitFirst? cut
    rw [splitFirst?] at cut
    split at cut
    · cases cut
      exact short
    · next missing =>
      simp only [Option.map_eq_some_iff, Prod.mk.injEq] at cut
      obtain ⟨⟨front, rest⟩, found, rfl, rfl⟩ := cut
      rw [List.cons_append, List.infix_cons_iff]
      rintro (led | later)
      · refine stripLead?_eq_none_iff.mp missing (led.trans ?_)
        rw [whole, ← List.cons_append, List.append_assoc, List.prefix_append_right_inj]
        exact sep.dropLast_prefix.trans (List.prefix_append sep rest)
      · exact ih found later

theorem splitFirst?_append_right (nonempty : sep ≠ [])
    (cut : splitFirst? sep cs = some (before, after)) (more : List Char) :
    splitFirst? sep (cs ++ more) = some (before, after ++ more) := by
  rw [eq_of_splitFirst? cut, List.append_assoc (before ++ sep)]
  exact splitFirst?_append (not_infix_of_splitFirst? nonempty cut)

theorem splitLast?_eq_none (missing : ¬ sep <:+: cs) : splitLast? sep cs = none := by
  rw [Option.eq_none_iff_forall_not_mem]
  rintro ⟨before, after⟩ found
  exact missing ⟨before, after, (eq_of_splitLast? found).symm⟩

theorem splitLast?_isSome (found : sep <:+: cs) : (splitLast? sep cs).isSome := by
  obtain ⟨before, after, rfl⟩ := found
  induction before with
  | nil =>
    have lead : stripLead? sep (sep ++ after) = some after := stripLead?_eq_some_iff.mpr rfl
    rw [List.nil_append]
    cases cs : sep ++ after with
    | nil => simp [splitLast?, ← cs, lead]
    | cons c rest =>
      rw [splitLast?]
      split
      · rfl
      · rw [← cs, lead]
        rfl
  | cons b before ih =>
    obtain ⟨cut, found⟩ := Option.isSome_iff_exists.mp ih
    rw [List.cons_append, List.cons_append, splitLast?, found]
    rfl

theorem not_infix_of_splitLast? (nonempty : sep ≠ [])
    (cut : splitLast? sep cs = some (before, after)) : ¬ sep <:+: sep.tail ++ after := by
  induction cs generalizing before with
  | nil =>
    have whole := eq_of_splitLast? cut
    simp [nonempty] at whole
  | cons c cs ih =>
    rw [splitLast?] at cut
    split at cut
    · next front rest found =>
      cases cut
      exact ih found
    · next missing =>
      simp only [Option.map_eq_some_iff, Prod.mk.injEq] at cut
      obtain ⟨rest, lead, rfl, rfl⟩ := cut
      have whole := congrArg List.tail (stripLead?_eq_some_iff.mp lead)
      rw [List.tail_append_of_ne_nil nonempty, List.tail_cons] at whole
      intro found
      have some := splitLast?_isSome (whole ▸ found)
      simp [missing] at some

theorem splitLast?_append (last : ¬ sep <:+: sep.tail ++ after) :
    splitLast? sep (before ++ sep ++ after) = some (before, after) := by
  induction before with
  | nil =>
    cases sep with
    | nil => exact absurd List.nil_infix last
    | cons s sep =>
      have lead : stripLead? (s :: sep) (s :: (sep ++ after)) = some after :=
        stripLead?_eq_some_iff.mpr rfl
      have rest : splitLast? (s :: sep) (sep ++ after) = none := splitLast?_eq_none last
      simp [splitLast?, rest, lead]
  | cons b before ih => rw [List.cons_append, List.cons_append, splitLast?, ih]

theorem splitAll_of_not_mem {c : Char} (free : c ∉ cs) : splitAll c cs = [cs] := by
  induction cs with
  | nil => rfl
  | cons d cs ih =>
    rw [List.mem_cons, not_or] at free
    rw [splitAll, if_neg (Ne.symm free.1), ih free.2]

theorem splitAll_append {c : Char} (free : c ∉ before) (after : List Char) :
    splitAll c (before ++ c :: after) = before :: splitAll c after := by
  induction before with
  | nil => simp [splitAll]
  | cons d before ih =>
    rw [List.mem_cons, not_or] at free
    rw [List.cons_append, splitAll, if_neg (Ne.symm free.1), ih free.2]

theorem splitAll_intercalate {c : Char} {parts : List (List Char)} (nonempty : parts ≠ [])
    (free : ∀ part ∈ parts, c ∉ part) : splitAll c ([c].intercalate parts) = parts := by
  induction parts with
  | nil => exact absurd rfl nonempty
  | cons part parts ih =>
    cases parts with
    | nil =>
      rw [List.intercalate_singleton]
      exact splitAll_of_not_mem (free part (by simp))
    | cons next parts =>
      rw [List.intercalate_cons_cons, List.append_assoc, List.singleton_append,
        splitAll_append (free part (by simp)),
        ih (by simp) fun other among => free other (by simp [among])]

theorem splitAll_parts (c : Char) (cs : List Char) :
    splitAll c cs ≠ [] ∧ [c].intercalate (splitAll c cs) = cs ∧
      ∀ part ∈ splitAll c cs, c ∉ part := by
  induction cs with
  | nil => simp [splitAll]
  | cons d cs ih =>
    obtain ⟨nonempty, whole, free⟩ := ih
    obtain ⟨part, parts, split⟩ := List.exists_cons_of_ne_nil nonempty
    rw [split] at whole free
    by_cases same : d = c
    · subst same
      rw [splitAll, if_pos rfl, split, List.intercalate_cons_cons, whole]
      simpa using free
    · rw [splitAll, if_neg same, split]
      refine ⟨List.cons_ne_nil _ _, ?_, ?_⟩
      · cases parts with
        | nil => simpa using whole
        | cons next parts =>
          rw [List.intercalate_cons_cons] at whole
          rw [List.intercalate_cons_cons, ← whole]
          rfl
      · rw [List.forall_mem_cons] at free ⊢
        refine ⟨?_, free.2⟩
        rw [List.mem_cons, not_or]
        exact ⟨Ne.symm same, free.1⟩

theorem eq_dropReturn_or (cs : List Char) : cs = dropReturn cs ∨ cs = dropReturn cs ++ ['\r'] := by
  fun_induction dropReturn cs with
  | case1 => exact .inl rfl
  | case2 => exact .inr rfl
  | case3 c cs _ ih =>
    rcases ih with same | ended
    · exact .inl (congrArg (c :: ·) same)
    · exact .inr (congrArg (c :: ·) ended)

theorem dropReturn_leads (cs : List Char) : dropReturn cs <+: cs := by
  rcases eq_dropReturn_or cs with same | ended
  · exact ⟨[], (List.append_nil _).trans same.symm⟩
  · exact ⟨['\r'], ended.symm⟩

/-- The lines of a text are those that it was put together from, without their carriage returns and
without an empty one at its end. -/
theorem lines_intercalate {parts : List (List Char)} (free : ∀ part ∈ parts, '\n' ∉ part) :
    lines (['\n'].intercalate parts) = parts.dropLast.map dropReturn ++
      if parts.getLastD [] = [] then [] else [parts.getLastD []] := by
  by_cases nonempty : parts = []
  · subst nonempty
    rfl
  · simp only [lines, splitAll_intercalate nonempty free]

end ResumableTasks.Text
