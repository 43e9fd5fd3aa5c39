/-!
Cutting text at a separator: the first or last occurrence, every occurrence of a character, and
line ends. A cut never loses a character other than the separator.
-/
namespace ResumableTasks.Text

def stripLead? : List Char → List Char → Option (List Char)
  | [], cs => some cs
  | _ :: _, [] => none
  | a :: as, c :: cs => if a = c then stripLead? as cs else none

theorem stripLead?_eq_some_iff {lead cs rest : List Char} :
    stripLead? lead cs = some rest ↔ cs = lead ++ rest := by
  induction lead generalizing cs with
  | nil => simp [stripLead?]
  | cons a as ih =>
    cases cs with
    | nil => simp [stripLead?]
    | cons c cs => by_cases h : a = c <;> simp [stripLead?, h, ih, eq_comm]

def hasLead (lead cs : List Char) : Bool := (stripLead? lead cs).isSome

def splitFirst? (sep : List Char) : List Char → Option (List Char × List Char)
  | [] => (stripLead? sep []).map fun rest => ([], rest)
  | c :: cs =>
    match stripLead? sep (c :: cs) with
    | some rest => some ([], rest)
    | none => (splitFirst? sep cs).map fun (before, after) => (c :: before, after)

/-- The parts before and after the last occurrence, the one that starts furthest right. -/
def splitLast? (sep : List Char) : List Char → Option (List Char × List Char)
  | [] => (stripLead? sep []).map fun rest => ([], rest)
  | c :: cs =>
    match splitLast? sep cs with
    | some (before, after) => some (c :: before, after)
    | none => (stripLead? sep (c :: cs)).map fun rest => ([], rest)

theorem eq_of_splitFirst? {sep cs before after : List Char}
    (h : splitFirst? sep cs = some (before, after)) : cs = before ++ sep ++ after := by
  induction cs generalizing before with
  | nil =>
    simp only [splitFirst?, Option.map_eq_some_iff, Prod.mk.injEq] at h
    obtain ⟨rest, found, rfl, rfl⟩ := h
    simpa using stripLead?_eq_some_iff.1 found
  | cons c cs ih =>
    rw [splitFirst?] at h
    split at h
    · next rest found =>
      cases h
      simpa using stripLead?_eq_some_iff.1 found
    · next missing =>
      simp only [Option.map_eq_some_iff, Prod.mk.injEq] at h
      obtain ⟨⟨b, a⟩, found, rfl, rfl⟩ := h
      simpa using ih found

theorem eq_of_splitLast? {sep cs before after : List Char}
    (h : splitLast? sep cs = some (before, after)) : cs = before ++ sep ++ after := by
  induction cs generalizing before with
  | nil =>
    simp only [splitLast?, Option.map_eq_some_iff, Prod.mk.injEq] at h
    obtain ⟨rest, found, rfl, rfl⟩ := h
    simpa using stripLead?_eq_some_iff.1 found
  | cons c cs ih =>
    rw [splitLast?] at h
    split at h
    · next b a found =>
      cases h
      simpa using ih found
    · next missing =>
      simp only [Option.map_eq_some_iff, Prod.mk.injEq] at h
      obtain ⟨rest, found, rfl, rfl⟩ := h
      simpa using stripLead?_eq_some_iff.1 found

def occurs (sep cs : List Char) : Bool := (splitFirst? sep cs).isSome

def splitAll (sep : Char) : List Char → List (List Char)
  | [] => [[]]
  | c :: cs =>
    if c = sep then [] :: splitAll sep cs
    else
      match splitAll sep cs with
      | part :: parts => (c :: part) :: parts
      | [] => [[c]]

def dropReturn : List Char → List Char
  | [] => []
  | ['\r'] => []
  | c :: cs => c :: dropReturn cs

/-- The lines of a text. A line feed, or a carriage return and a line feed, ends a line; a carriage
return at the very end of the text is part of the last line. -/
def lines (cs : List Char) : List (List Char) :=
  let parts := splitAll '\n' cs
  let last := parts.getLastD []
  parts.dropLast.map dropReturn ++ if last = [] then [] else [last]

end ResumableTasks.Text
