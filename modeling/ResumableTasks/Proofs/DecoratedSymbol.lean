import ResumableTasks.Proofs.AngleBrackets
/-!
Symbols with decorations: the path of a routine, written plainly or with its owner in angle
brackets, with generic arguments after the owner and after the routine, and with a hash at the end.
Whatever the arguments are, path and routine are what the symbol is read as.
-/
namespace ResumableTasks.Symbol

open Text

variable {cs front kept segment hash : List Char} {segments : List (List Char)} {c : Char}

/-- A name as it stands between the colons of a path. -/
structure Plain (name : List Char) : Prop where
  nonempty : name ≠ []
  free : ∀ c ∈ name, c ≠ ':' ∧ c ≠ '<' ∧ c ≠ '>' ∧ c ≠ ' '

instance (name : List Char) : Decidable (Plain name) :=
  decidable_of_iff (name ≠ [] ∧ name.all fun c => c ≠ ':' ∧ c ≠ '<' ∧ c ≠ '>' ∧ c ≠ ' ')
    ⟨fun both => ⟨both.1, by simpa using both.2⟩,
      fun plain => ⟨plain.nonempty, by simpa using plain.free⟩⟩

theorem Plain.bracketless (plain : Plain segment) : Bracketless segment := fun c among =>
  ⟨(plain.free c among).2.1, (plain.free c among).2.2.1⟩

theorem Plain.no_colon (plain : Plain segment) : ':' ∉ segment := fun among =>
  (plain.free ':' among).1 rfl

theorem Plain.solid (plain : Plain segment) (front kept : List Char) :
    ((front ++ segment).reverse ++ kept).head? ≠ some ':' := by
  obtain ⟨c, rest, reversed⟩ := List.exists_cons_of_ne_nil
    (List.reverse_ne_nil_iff.mpr plain.nonempty)
  have among : c ∈ segment := List.mem_reverse.mp (by simp [reversed])
  simpa [reversed] using (plain.free c among).1

theorem Plain.begins (plain : Plain segment) (rest : List Char) :
    (segment ++ rest).head? ≠ some ':' ∧ (segment ++ rest).head? ≠ some '<' := by
  obtain ⟨c, segment, rfl⟩ := List.exists_cons_of_ne_nil plain.nonempty
  have free := plain.free c (by simp)
  exact ⟨by simpa using free.1, by simpa using free.2.1⟩

/-! ### Hashes -/

theorem isHash_only (hashed : isHash hash) (other : c ≠ 'h') (digit : isHexDigit c = false) :
    c ∉ hash := by
  unfold isHash at hashed
  split at hashed
  · next digits =>
    simp only [Bool.and_eq_true, List.all_eq_true] at hashed
    rintro (_ | ⟨_, among⟩)
    · exact other rfl
    · rw [hashed.2 c among] at digit
      cases digit
  · cases hashed

theorem isHash_ne_nil (hashed : isHash hash) : hash ≠ [] := by
  rintro rfl
  cases hashed

theorem splitLast?_segment (free : ':' ∉ segment) (front : List Char) :
    splitLast? colons (front ++ colons ++ segment) = some (front, segment) := by
  refine splitLast?_append ?_
  rintro ⟨before, after, same⟩
  have several := congrArg (List.count ':') same
  simp [colons, List.count_eq_zero.mpr free] at several
  omega

theorem dropHash_segment (free : ':' ∉ segment) (front : List Char) :
    dropHash (front ++ colons ++ segment) =
      if isHash segment then front else front ++ colons ++ segment := by
  unfold dropHash
  rw [splitLast?_segment free]

theorem eq_dropHash_or (cs : List Char) :
    dropHash cs = cs ∨ ∃ hash, isHash hash ∧ cs = dropHash cs ++ colons ++ hash := by
  unfold dropHash
  split
  · next front tail cut =>
    split
    · next hashed => exact .inr ⟨tail, hashed, eq_of_splitLast? cut⟩
    · exact .inl rfl
  · exact .inl rfl

theorem dropHash_of_closed (cs : List Char) : dropHash (cs ++ ['>']) = cs ++ ['>'] := by
  rcases eq_dropHash_or (cs ++ ['>']) with same | ⟨hash, hashed, whole⟩
  · exact same
  · have last := congrArg List.getLast? whole
    rw [List.getLast?_append_of_ne_nil _ (isHash_ne_nil hashed), List.getLast?_concat] at last
    have among : '>' ∈ hash := List.mem_of_getLast? last.symm
    exact absurd among (isHash_only hashed (by decide) (by decide))

/-! ### Parts -/

def qualifier? : List Char → Option (List Char × List Char)
  | '<' :: rest => splitQualifier? 1 rest
  | _ => none

theorem parts_eq (cs : List Char) :
    parts cs = match qualifier? (dropHash cs) with
      | some (qualifier, rest) => (dropGenerics (owner qualifier), dropGenerics (dropColons rest))
      | none => splitPath (dropGenerics (dropHash cs)) := rfl

theorem ofSymbol_parts {cs : List Char} (known : cs ≠ "<unknown>".toList) :
    CallSite.ofSymbol (String.ofList cs) =
      { path := String.ofList (parts cs).1, routine := String.ofList (parts cs).2 } := by
  have named : String.ofList cs ≠ "<unknown>" := fun same =>
    known (by rw [← same, String.toList_ofList])
  unfold CallSite.ofSymbol
  rw [if_neg named, String.toList_ofList]

theorem ofSymbol_of_colon {cs : List Char} (among : ':' ∈ cs) :
    CallSite.ofSymbol (String.ofList cs) =
      { path := String.ofList (parts cs).1, routine := String.ofList (parts cs).2 } := by
  refine ofSymbol_parts fun same => ?_
  rw [same] at among
  exact absurd among (by decide)

theorem qualifier?_plain (plain : cs.head? ≠ some '<') : qualifier? cs = none := by
  unfold qualifier?
  split
  · simp at plain
  · rfl

theorem qualifier?_balanced (balanced : Balanced cs) (rest : List Char) :
    qualifier? ('<' :: (cs ++ ['>']) ++ rest) = some (cs, rest) := by
  rw [List.cons_append, List.append_assoc]
  exact splitQualifier?_balanced balanced rest

theorem qualifier?_eq_some_iff {qualifier rest : List Char} :
    qualifier? cs = some (qualifier, rest) ↔
      Balanced qualifier ∧ cs = '<' :: (qualifier ++ ['>']) ++ rest := by
  constructor
  · intro found
    unfold qualifier? at found
    split at found
    · obtain ⟨rfl, balanced⟩ := balanced_of_splitQualifier? found
      exact ⟨balanced, by simp⟩
    · cases found
  · rintro ⟨balanced, rfl⟩
    exact qualifier?_balanced balanced rest

theorem dropColons_solid (solid : cs.head? ≠ some ':') : dropColons cs = cs := by
  unfold dropColons
  split
  · simp at solid
  · rfl

/-! ### Paths -/

def joined (segments : List (List Char)) : List Char := colons.intercalate segments

theorem joined_cons (first next : List Char) (rest : List (List Char)) :
    joined (first :: next :: rest) = first ++ colons ++ joined (next :: rest) :=
  List.intercalate_cons_cons

theorem mem_joined (plain : ∀ s ∈ segments, Plain s) (among : c ∈ joined segments) :
    c ≠ '<' ∧ c ≠ '>' ∧ c ≠ ' ' := by
  induction segments with
  | nil => cases among
  | cons first rest ih =>
    have own (here : c ∈ first) := ((plain first (by simp)).free c here).2
    cases rest with
    | nil => exact own (by simpa [joined] using among)
    | cons next rest =>
      rw [joined_cons, List.mem_append, List.mem_append] at among
      rcases among with (here | between) | later
      · exact own here
      · obtain rfl : c = ':' := by simpa [colons] using between
        decide
      · exact ih (fun s listed => plain s (by simp [listed])) later

theorem joined_begins (nonempty : segments ≠ []) :
    ∃ s ∈ segments, ∃ rest, joined segments = s ++ rest := by
  cases segments with
  | nil => exact absurd rfl nonempty
  | cons first rest =>
    refine ⟨first, by simp, ?_⟩
    cases rest with
    | nil => exact ⟨[], by simp [joined]⟩
    | cons next rest => exact ⟨_, by rw [joined_cons, List.append_assoc]⟩

theorem joined_ends (nonempty : segments ≠ []) :
    ∃ s ∈ segments, ∃ front, joined segments = front ++ s := by
  induction segments with
  | nil => exact absurd rfl nonempty
  | cons first rest ih =>
    cases rest with
    | nil => exact ⟨first, by simp, [], by simp [joined]⟩
    | cons next rest =>
      obtain ⟨s, listed, front, same⟩ := ih (by simp)
      refine ⟨s, by simp [listed], first ++ colons ++ front, ?_⟩
      rw [joined_cons, same, ← List.append_assoc]

/-! ### Decorations -/

structure GenericArguments where
  turbofish : Bool
  args : List Char
  balanced : Balanced args

def GenericArguments.lead (g : GenericArguments) : List Char :=
  if g.turbofish then colons ++ ['<'] else ['<']

def GenericArguments.text (g : GenericArguments) : List Char := g.lead ++ (g.args ++ ['>'])

/-- A path and a routine as they are decorated in a symbol. A routine with nothing after it does not
look like a hash. -/
structure Decorated where
  segments : List (List Char)
  routine : List Char
  bracketed : Bool
  ownerArguments : Option GenericArguments
  routineArguments : Option GenericArguments
  hash : Option (List Char)
  several : 2 ≤ segments.length
  plain : ∀ s ∈ segments, Plain s
  plainRoutine : Plain routine
  hashed : ∀ h ∈ hash, isHash h
  unhashed : routineArguments = none → hash = none → isHash routine = false

namespace Decorated

def path (d : Decorated) : List Char := joined d.segments

def ownerText (d : Decorated) : List Char :=
  d.path ++ (d.ownerArguments.map GenericArguments.text).getD []

def routineText (d : Decorated) : List Char :=
  d.routine ++ (d.routineArguments.map GenericArguments.text).getD []

def body (d : Decorated) : List Char :=
  (if d.bracketed then '<' :: (d.ownerText ++ ['>']) else d.ownerText) ++ colons ++ d.routineText

def text (d : Decorated) : List Char := d.body ++ (d.hash.map (colons ++ ·)).getD []

end Decorated

theorem outsideGenerics_lead (g : GenericArguments) (solid : kept.head? ≠ some ':')
    (cs : List Char) :
    outsideGenerics kept 0 (g.lead ++ cs) = outsideGenerics kept 1 cs := by
  unfold GenericArguments.lead
  split
  · simp [colons, outsideGenerics, dropColonsBack]
  · simp [outsideGenerics, dropColonsBack_solid solid]

theorem outsideGenerics_arguments (args : Option GenericArguments)
    (solid : kept.head? ≠ some ':') (cs : List Char) :
    outsideGenerics kept 0 ((args.map GenericArguments.text).getD [] ++ cs) =
      outsideGenerics kept 0 cs := by
  cases args with
  | none => rfl
  | some g =>
    change outsideGenerics kept 0 (g.lead ++ (g.args ++ ['>']) ++ cs) = _
    rw [List.append_assoc, outsideGenerics_lead g solid, List.append_assoc, List.singleton_append,
      outsideGenerics_closed g.balanced]

theorem dropGenerics_routine (plain : Plain segment) (args : Option GenericArguments) :
    dropGenerics (segment ++ (args.map GenericArguments.text).getD []) = segment := by
  have solid : (segment.reverse ++ []).head? ≠ some ':' := plain.solid [] []
  have alone := outsideGenerics_arguments args solid []
  rw [List.append_nil ((args.map _).getD [])] at alone
  unfold dropGenerics
  rw [outsideGenerics_bracketless plain.bracketless, alone]
  simp [outsideGenerics]

theorem GenericArguments.balanced_text (g : GenericArguments) : Balanced g.text := by
  have group := g.balanced.group
  unfold GenericArguments.text GenericArguments.lead
  split
  · rw [List.append_assoc]
    exact (Bracketless.balanced (by decide)).append group
  · exact group

namespace Decorated

variable (d : Decorated)

theorem segments_ne_nil : d.segments ≠ [] := by
  intro none
  have several := d.several
  simp [none] at several

theorem colons_infix_path : colons <:+: d.path := by
  match segments : d.segments, d.several with
  | first :: next :: rest, _ =>
    rw [path, segments, joined_cons, List.append_assoc]
    exact ⟨first, joined (next :: rest), by rw [List.append_assoc]⟩

theorem path_bracketless : Bracketless d.path := fun _ among =>
  ⟨(mem_joined d.plain among).1, (mem_joined d.plain among).2.1⟩

theorem path_solid : (d.path.reverse ++ []).head? ≠ some ':' := by
  obtain ⟨s, listed, front, same⟩ := joined_ends d.segments_ne_nil
  rw [path, same]
  exact (d.plain s listed).solid front []

theorem dropGenerics_ownerText (cs : List Char) :
    outsideGenerics [] 0 (d.ownerText ++ cs) = outsideGenerics d.path.reverse 0 cs := by
  unfold ownerText
  rw [List.append_assoc, outsideGenerics_bracketless d.path_bracketless,
    outsideGenerics_arguments _ d.path_solid, List.append_nil]

theorem dropHash_text : dropHash d.text = d.body := by
  unfold text
  cases hashed : d.hash with
  | some hash =>
    have isHash := d.hashed hash hashed
    have free : ':' ∉ hash := isHash_only isHash (by decide) (by decide)
    rw [Option.map_some, Option.getD_some, ← List.append_assoc, dropHash_segment free,
      if_pos isHash]
  | none =>
    rw [Option.map_none, Option.getD_none, List.append_nil]
    unfold body routineText
    cases decorated : d.routineArguments with
    | none =>
      have unhashed := d.unhashed decorated hashed
      rw [Option.map_none, Option.getD_none, List.append_nil,
        dropHash_segment d.plainRoutine.no_colon, if_neg (by simp [unhashed])]
    | some g =>
      rw [Option.map_some, Option.getD_some, GenericArguments.text, ← List.append_assoc,
        ← List.append_assoc, ← List.append_assoc, dropHash_of_closed]

theorem dropGenerics_body : dropGenerics (d.ownerText ++ colons ++ d.routineText) =
    d.path ++ colons ++ d.routine := by
  have colonsBracketless : Bracketless colons := by decide
  have solid : (d.routine.reverse ++ (colons.reverse ++ d.path.reverse)).head? ≠ some ':' :=
    d.plainRoutine.solid [] _
  have alone := outsideGenerics_arguments d.routineArguments solid []
  rw [List.append_nil ((d.routineArguments.map _).getD [])] at alone
  unfold dropGenerics routineText
  rw [List.append_assoc, dropGenerics_ownerText, outsideGenerics_bracketless colonsBracketless,
    outsideGenerics_bracketless d.plainRoutine.bracketless, alone]
  simp [outsideGenerics]

theorem ownerText_balanced : Balanced d.ownerText := by
  refine d.path_bracketless.balanced.append ?_
  cases d.ownerArguments with
  | none => exact Bracketless.balanced (by decide)
  | some g => exact g.balanced_text

/-- What stands before a blank in the owner is its path up to the arguments, or a part of these. -/
theorem dropGenerics_before_blank (within : front ++ [' '] <+: d.ownerText) :
    dropGenerics front = d.path := by
  have blankless : ' ' ∉ d.path := fun among => (mem_joined d.plain among).2.2 rfl
  unfold ownerText at within
  cases arguments : d.ownerArguments with
  | none =>
    rw [arguments, Option.map_none, Option.getD_none, List.append_nil] at within
    exact absurd (within.subset (by simp)) blankless
  | some g =>
    have free : ' ' ∉ d.path ++ g.lead := by
      unfold GenericArguments.lead
      split <;> simp [blankless, colons]
    rw [arguments, Option.map_some, Option.getD_some, GenericArguments.text,
      ← List.append_assoc] at within
    obtain ⟨x, rfl, inside⟩ := append_of_not_mem free within
    have part : x <+: g.args := by
      rcases List.prefix_concat_iff.mp inside with same | shorter
      · cases (List.append_singleton_inj.mp same).2
      · exact (List.prefix_append x [' ']).trans shorter
    unfold dropGenerics
    rw [List.append_assoc, outsideGenerics_bracketless d.path_bracketless,
      outsideGenerics_lead g d.path_solid,
      outsideGenerics_open (g.balanced.staysOpen.within part)]
    simp

theorem dropGenerics_owner : dropGenerics (Symbol.owner d.ownerText) = d.path := by
  unfold Symbol.owner
  split
  · next self trait cut =>
    -- This may be an ` as ` in the arguments; what stands before it has the same path.
    have within : self ++ [' '] <+: d.ownerText :=
      ⟨"as ".toList ++ trait, by simp [eq_of_splitFirst? cut]⟩
    have path := d.dropGenerics_before_blank within
    rw [path, if_pos (occurs_iff.mpr d.colons_infix_path)]
    exact path
  · have whole := d.dropGenerics_ownerText []
    rw [List.append_nil] at whole
    simp [dropGenerics, whole, outsideGenerics]

theorem parts_text : parts d.text = (d.path, d.routine) := by
  obtain ⟨first, listed, rest, begins⟩ := joined_begins d.segments_ne_nil
  have routine := dropGenerics_routine d.plainRoutine d.routineArguments
  rw [parts_eq, dropHash_text]
  unfold body
  cases d.bracketed with
  | true =>
    have qualified : qualifier? ('<' :: (d.ownerText ++ ['>']) ++ colons ++ d.routineText) =
        some (d.ownerText, colons ++ d.routineText) := by
      rw [List.append_assoc]
      exact qualifier?_balanced d.ownerText_balanced _
    have after : dropColons (colons ++ d.routineText) = d.routineText :=
      dropColons_solid (d.plainRoutine.begins _).1
    simp only [↓reduceIte, qualified, dropGenerics_owner, after]
    rw [routineText, routine]
  | false =>
    have plain : (d.ownerText ++ colons ++ d.routineText).head? ≠ some '<' := by
      rw [ownerText, path, begins, List.append_assoc, List.append_assoc, List.append_assoc]
      exact ((d.plain first listed).begins _).2
    simp only [Bool.false_eq_true, ↓reduceIte, qualifier?_plain plain, dropGenerics_body]
    rw [splitPath, splitLast?_segment d.plainRoutine.no_colon]

end Decorated

/-- Path and routine of a symbol are found whatever decorates them, and nothing else is made out of
the symbol. -/
theorem decorated_symbol_is_read (d : Decorated) :
    CallSite.ofSymbol (String.ofList d.text) =
      { path := String.ofList d.path, routine := String.ofList d.routine } := by
  have among : ':' ∈ d.text := by
    simp [Decorated.text, Decorated.body, colons]
  rw [ofSymbol_of_colon among, d.parts_text]

/-- The arguments of the owner have an ` as ` and a segment like a hash in them, those of the
routine nested brackets; a hash follows. -/
def decoratedStep : Decorated where
  segments := ["app".toList, "Steps".toList]
  routine := "step".toList
  bracketed := true
  ownerArguments := some
    { turbofish := true
      args := "<U as X>::h0123456789abcdef".toList
      balanced := (show Bracketless "U as X".toList by decide).balanced.group.append
        (show Bracketless "::h0123456789abcdef".toList by decide).balanced }
  routineArguments := some
    { turbofish := false
      args := "<T>".toList
      balanced := (show Bracketless ['T'] by decide).balanced.group }
  hash := some "h0123456789abcdef".toList
  several := by decide
  plain := by
    rintro s (_ | ⟨_, _ | ⟨_, ⟨⟩⟩⟩)
    · decide
    · decide
  plainRoutine := by decide
  hashed := by simp; decide
  unhashed := by simp

theorem decorated_step_is_read :
    CallSite.ofSymbol
        "<app::Steps::<<U as X>::h0123456789abcdef>>::step<<T>>::h0123456789abcdef" =
      { path := "app::Steps", routine := "step" } :=
  decorated_symbol_is_read decoratedStep

end ResumableTasks.Symbol
