import Mathlib.Data.List.DropRight
import Mathlib.Data.List.Forall2
import ResumableTasks.Proofs.BacktraceText
import ResumableTasks.Proofs.SettingsFields
/-!
What the text of a variable stands for. The grammar is given without the reader: a number is written
in digits with at most one plus sign before them, a span may be named as none, and a list has a
comma between its items; blanks around any of these do not count. The reader accepts exactly the
texts that stand for something.
-/
namespace ResumableTasks

namespace Text

variable {core cs : List Char}

structure Padded (core cs : List Char) : Prop where
  whole : ∃ before after, cs = before ++ core ++ after ∧
    (∀ c ∈ before, isBlank c = true) ∧ ∀ c ∈ after, isBlank c = true
  first : ∀ c ∈ core.head?, isBlank c = false
  last : ∀ c ∈ core.getLast?, isBlank c = false

theorem trimEnd_eq_rdropWhile (cs : List Char) : trimEnd cs = cs.rdropWhile isBlank := rfl

theorem trim_of_padded (padded : Padded core cs) : trim cs = core := by
  obtain ⟨before, after, rfl, ahead, behind⟩ := padded.whole
  have start : trimStart (before ++ core ++ after) = trimStart (core ++ after) := by
    rw [List.append_assoc]
    exact List.dropWhile_append_of_pos ahead
  have stop : trimEnd (core ++ after) = trimEnd core := by
    simp only [trimEnd, List.reverse_append]
    rw [List.dropWhile_append_of_pos fun c among => behind c (List.mem_reverse.mp among)]
  have kept : trimEnd core = core := by
    rw [trimEnd_eq_rdropWhile, List.rdropWhile_eq_self_iff]
    intro nonempty blank
    have solid := padded.last _ (List.getLast?_eq_some_getLast nonempty)
    rw [blank] at solid
    cases solid
  cases core with
  | nil =>
    have gone : trimStart ([] ++ after) = [] := List.dropWhile_eq_nil_iff.mpr behind
    rw [trim, start, gone]
    rfl
  | cons c core =>
    have solid : trimStart (c :: core ++ after) = c :: core ++ after :=
      trimStart_of_head (padded.first)
    rw [trim, start, solid, stop, kept]

theorem padded_trim (cs : List Char) : Padded (trim cs) cs where
  whole := by
    refine ⟨cs.takeWhile isBlank, (trimStart cs).rtakeWhile isBlank, ?_,
      fun c among => List.mem_takeWhile_imp among, fun c among => List.mem_rtakeWhile_imp among⟩
    rw [List.append_assoc, trim, trimEnd_eq_rdropWhile, List.rdropWhile_append_rtakeWhile]
    exact List.takeWhile_append_dropWhile.symm
  first := by
    intro c head
    have lead : trim cs <+: trimStart cs := List.rdropWhile_prefix isBlank _
    obtain ⟨rest, whole⟩ := lead
    have started : c ∈ (trimStart cs).head? := by
      rw [← whole, List.head?_append, Option.mem_def.mp head]
      rfl
    have solid := List.head?_dropWhile_not isBlank cs
    rw [trimStart] at started
    rw [Option.mem_def.mp started] at solid
    exact solid
  last := by
    intro c stop
    have nonempty : trim cs ≠ [] := by
      rintro none
      rw [none] at stop
      cases stop
    have solid := List.rdropWhile_last_not isBlank (trimStart cs) nonempty
    rw [List.getLast?_eq_some_getLast nonempty] at stop
    cases stop
    exact Bool.eq_false_iff.mpr solid

theorem trim_eq_iff : trim cs = core ↔ Padded core cs := by
  constructor
  · rintro rfl
    exact padded_trim cs
  · exact trim_of_padded

/-- The value of a text as a number: digits, after at most one plus sign, with a value below the
limit. -/
def Numeral (limit : Nat) (cs : List Char) (n : Nat) : Prop :=
  ∃ sign digits, cs = sign ++ digits ∧ (sign = [] ∨ sign = ['+']) ∧ digits ≠ [] ∧
    (∀ c ∈ digits, isDigit c = true) ∧ decimalValue digits = n ∧ n < limit

theorem readDecimal?_eq_some_iff {limit n : Nat} :
    readDecimal? limit cs = some n ↔ Numeral limit cs n := by
  have unsigned (digits : List Char) :
      (if digits ≠ [] ∧ digits.all isDigit ∧ decimalValue digits < limit then
        some (decimalValue digits) else none) = some n ↔
      digits ≠ [] ∧ (∀ c ∈ digits, isDigit c = true) ∧ decimalValue digits = n ∧ n < limit := by
    rw [Option.ite_none_right_eq_some, Option.some.injEq, List.all_eq_true]
    constructor
    · rintro ⟨⟨nonempty, digits, bound⟩, rfl⟩
      exact ⟨nonempty, digits, rfl, bound⟩
    · rintro ⟨nonempty, digits, rfl, bound⟩
      exact ⟨⟨nonempty, digits, bound⟩, rfl⟩
  constructor
  · intro read
    simp only [readDecimal?] at read
    split at read
    · next rest => exact ⟨['+'], rest, rfl, .inr rfl, (unsigned rest).mp read⟩
    · exact ⟨[], cs, rfl, .inl rfl, (unsigned cs).mp read⟩
  · rintro ⟨sign, digits, rfl, rfl | rfl, numeral⟩
    · simp only [readDecimal?, List.nil_append]
      split
      · exact absurd (numeral.2.1 '+' List.mem_cons_self) (by decide)
      · exact (unsigned digits).mpr numeral
    · exact (unsigned digits).mpr numeral

def NamesNoSpan (core : List Char) : Prop :=
  core.map Char.toLower ∈ ["".toList, "none".toList, "off".toList]

instance (core : List Char) : Decidable (NamesNoSpan core) :=
  inferInstanceAs (Decidable (core.map Char.toLower ∈ ["".toList, "none".toList, "off".toList]))

theorem toLower_of_le {c : Char} (bound : c ≤ '9') : c.toLower = c := by
  have small : c.val.toNat ≤ 57 := bound
  refine dif_neg fun large => ?_
  have large : 65 ≤ c.val.toNat := large.1
  omega

theorem Numeral.not_namesNoSpan {limit n : Nat} (numeral : Numeral limit core n) :
    ¬ NamesNoSpan core := by
  obtain ⟨sign, digits, rfl, signed, nonempty, digital, -⟩ := numeral
  -- The words begin with letters, a number with a digit or a sign.
  have low : ∀ c ∈ sign ++ digits, c ≤ '9' := by
    intro c among
    rcases List.mem_append.mp among with ahead | behind
    · rcases signed with rfl | rfl
      · cases ahead
      · rw [List.mem_singleton.mp ahead]
        decide
    · have digit := digital c behind
      simp only [isDigit, Bool.and_eq_true, decide_eq_true_eq] at digit
      exact digit.2
  have same : (sign ++ digits).map Char.toLower = sign ++ digits :=
    (List.map_congr_left fun c among => toLower_of_le (low c among)).trans (List.map_id _)
  rw [NamesNoSpan, same, List.mem_cons, List.mem_cons, List.mem_singleton]
  rintro (empty | none | off)
  · exact nonempty (List.append_eq_nil_iff.mp empty).2
  · exact absurd (low 'n' (none ▸ by decide)) (by decide)
  · exact absurd (low 'o' (off ▸ by decide)) (by decide)

end Text

/-- The value of a field, put over the one that it had. A list is added to, anything else is
replaced. -/
def Setting.put : Setting → Setting → Setting
  | .texts list, .texts more => .texts (list ++ more)
  | _, x => x

theorem Setting.put_right_injective {under x y : Setting} (same : under.put x = under.put y) :
    x = y := by
  cases under <;> cases x <;> cases y <;> simp_all [put]

namespace Variable

/-- What the text of a variable stands for. -/
inductive Denotes (value : String) : Variable → Setting → Prop
  | count {v : Variable} {core : List Char} {n : Nat}
      (counts : v ∈ [.workerThreads, .threadStackSize, .idleBackoff])
      (padded : Text.Padded core value.toList) (numeral : Text.Numeral UInt64.size core n) :
      Denotes value v (.count n)
  | text {v : Variable} (named : v ∈ [.threadNamePrefix, .runtimeNamespace]) :
      Denotes value v (.text value)
  | noSpan {core : List Char} (padded : Text.Padded core value.toList)
      (named : Text.NamesNoSpan core) : Denotes value .idleTimeout (.span none)
  | span {core : List Char} {n : Nat} (padded : Text.Padded core value.toList)
      (numeral : Text.Numeral UInt64.size core n) : Denotes value .idleTimeout (.span (some n))
  | list {parts cores : List (List Char)} (nonempty : parts ≠ [])
      (whole : [','].intercalate parts = value.toList) (free : ∀ part ∈ parts, ',' ∉ part)
      (padded : List.Forall₂ Text.Padded cores parts) :
      Denotes value .notCounted (.texts ((cores.filter (· ≠ [])).map String.ofList))

def expected : Variable → String
  | .workerThreads | .threadStackSize => "unsigned integer"
  | _ => "milliseconds as u64"

variable {v : Variable} {value : String} {x y : Setting}

theorem readWord_of_numeral {core : List Char} {n : Nat} (padded : Text.Padded core value.toList)
    (numeral : Text.Numeral UInt64.size core n) (text : String) :
    v.readWord text value = .ok n := by
  rw [readWord, Text.trim_of_padded padded, Text.readDecimal?_eq_some_iff.mpr numeral]

theorem readWord_error {text : String}
    (missing : ∀ n, ¬ Text.Numeral UInt64.size (Text.trim value.toList) n) :
    v.readWord text value = .error (.invalidValue v.name text value) := by
  rw [readWord]
  split
  · next found => exact absurd (Text.readDecimal?_eq_some_iff.mp found) (missing _)
  · rfl

theorem readOptionalSpan_of_named (named : Text.NamesNoSpan (Text.trim value.toList)) :
    v.readOptionalSpan value = .ok none := by
  refine if_pos ?_
  rw [Text.NamesNoSpan, List.mem_cons, List.mem_cons, List.mem_singleton] at named
  exact named

theorem readOptionalSpan_of_unnamed (unnamed : ¬ Text.NamesNoSpan (Text.trim value.toList)) :
    v.readOptionalSpan value = (v.readSpan value).map some := by
  refine if_neg ?_
  rw [Text.NamesNoSpan, List.mem_cons, List.mem_cons, List.mem_singleton] at unnamed
  exact unnamed

theorem readList_of_parts {parts cores : List (List Char)} (nonempty : parts ≠ [])
    (whole : [','].intercalate parts = value.toList) (free : ∀ part ∈ parts, ',' ∉ part)
    (padded : List.Forall₂ Text.Padded cores parts) :
    readList value = (cores.filter (· ≠ [])).map String.ofList := by
  have trimmed : parts.map Text.trim = cores := by
    clear nonempty whole free
    induction padded with
    | nil => rfl
    | cons first _ ih => rw [List.map_cons, Text.trim_of_padded first, ih]
  rw [readList, ← whole, Text.splitAll_intercalate nonempty free, trimmed]

theorem list_denotes (value : String) : ∃ x, notCounted.Denotes value x := by
  obtain ⟨nonempty, whole, free⟩ := Text.splitAll_parts ',' value.toList
  have padded : List.Forall₂ Text.Padded ((Text.splitAll ',' value.toList).map Text.trim)
      (Text.splitAll ',' value.toList) :=
    List.forall₂_map_left_iff.mpr (List.forall₂_same.mpr fun part _ => Text.padded_trim part)
  exact ⟨_, .list nonempty whole free padded⟩

theorem apply_of_denotes (denoted : v.Denotes value x) (s : Settings) :
    ∃ t, v.apply value s = .ok t ∧
      ∀ u, t.field u = if u = v then (s.field v).put x else s.field u := by
  cases denoted with
  | count counts padded numeral =>
    simp only [List.mem_cons, List.not_mem_nil, or_false] at counts
    rcases counts with rfl | rfl | rfl
    all_goals
      simp only [apply, readCount, readSpan, readWord_of_numeral padded numeral]
      exact ⟨_, rfl, fun u => by cases u <;> rfl⟩
  | text named =>
    simp only [List.mem_cons, List.not_mem_nil, or_false] at named
    rcases named with rfl | rfl
    all_goals exact ⟨_, rfl, fun u => by cases u <;> rfl⟩
  | noSpan padded named =>
    rw [← Text.trim_of_padded padded] at named
    simp only [apply, readOptionalSpan_of_named named]
    exact ⟨_, rfl, fun u => by cases u <;> rfl⟩
  | span padded numeral =>
    have unnamed := numeral.not_namesNoSpan
    rw [← Text.trim_of_padded padded] at unnamed
    simp only [apply, readOptionalSpan_of_unnamed unnamed, readSpan,
      readWord_of_numeral padded numeral]
    exact ⟨_, rfl, fun u => by cases u <;> rfl⟩
  | list nonempty whole free padded =>
    simp only [apply, readList_of_parts nonempty whole free padded]
    exact ⟨_, rfl, fun u => by cases u <;> rfl⟩

theorem apply_of_undenoted (undenoted : ∀ x, ¬ v.Denotes value x) (s : Settings) :
    v.apply value s = .error (.invalidValue v.name v.expected value) := by
  have padded := Text.padded_trim value.toList
  cases v with
  | workerThreads | threadStackSize | idleBackoff =>
    have missing (n : Nat) : ¬ Text.Numeral UInt64.size (Text.trim value.toList) n :=
      fun numeral => undenoted _ (.count (by simp) padded numeral)
    simp only [apply, readCount, readSpan, readWord_error missing]
    rfl
  | threadNamePrefix | runtimeNamespace => exact absurd (.text (by simp)) (undenoted (.text value))
  | idleTimeout =>
    have unnamed : ¬ Text.NamesNoSpan (Text.trim value.toList) :=
      fun named => undenoted _ (.noSpan padded named)
    have missing (n : Nat) : ¬ Text.Numeral UInt64.size (Text.trim value.toList) n :=
      fun numeral => undenoted _ (.span padded numeral)
    simp only [apply, readOptionalSpan_of_unnamed unnamed, readSpan, readWord_error missing]
    rfl
  | notCounted =>
    obtain ⟨x, denoted⟩ := list_denotes value
    exact absurd denoted (undenoted x)

theorem Denotes.unique (first : v.Denotes value x) (second : v.Denotes value y) : x = y := by
  obtain ⟨t, applied, changed⟩ := apply_of_denotes first default
  obtain ⟨u, again, changed'⟩ := apply_of_denotes second default
  cases applied.symm.trans again
  have same := (changed v).symm.trans (changed' v)
  rw [if_pos rfl, if_pos rfl] at same
  exact Setting.put_right_injective same

end Variable

end ResumableTasks
