import ResumableTasks.CallSite.Backtrace
import ResumableTasks.Proofs.SeparatedText
/-!
The printed form of a backtrace, and what is read from it. A symbol stands on a line of its own,
with a number before it or, where it was inlined into the one above, without one; its position
follows on another line. Lines are indented at will and blank lines may stand anywhere.
-/
namespace ResumableTasks

namespace Text

def decimal (n : Nat) : List Char := Nat.toDigits 10 n

def Blanks (cs : List Char) : Prop := ∀ c ∈ cs, isBlank c = true ∧ c ≠ '\n'

instance (cs : List Char) : Decidable (Blanks cs) :=
  List.decidableBAll (fun c => isBlank c = true ∧ c ≠ '\n') cs

variable {cs indent : List Char} {c : Char} {n : Nat}

theorem decimal_ne_nil : decimal n ≠ [] := Nat.toDigits_ne_nil

theorem isDigit_of_mem_decimal (among : c ∈ decimal n) : isDigit c = true :=
  Nat.isDigit_of_mem_toDigits (by decide) (by decide) among

theorem not_mem_decimal (other : isDigit c = false) : c ∉ decimal n := by
  intro among
  rw [isDigit_of_mem_decimal among] at other
  cases other

theorem decimalValue_decimal (n : Nat) : decimalValue (decimal n) = n := by
  have value := Nat.ofDigitChars_ten_toDigits (n := n)
  rw [Nat.ofDigitChars_eq_foldl] at value
  exact value

theorem all_isDigit_decimal (n : Nat) : (decimal n).all isDigit = true :=
  List.all_eq_true.mpr fun _ among => isDigit_of_mem_decimal among

theorem readDecimal?_unsigned {limit : Nat} (nonempty : cs ≠ []) (digits : cs.all isDigit)
    (bound : decimalValue cs < limit) : readDecimal? limit cs = some (decimalValue cs) := by
  simp only [readDecimal?]
  split
  · exact absurd (List.all_eq_true.mp digits '+' (by simp)) (by decide)
  · exact if_pos ⟨nonempty, digits, bound⟩

theorem readDecimal?_decimal {limit : Nat} (bound : n < limit) :
    readDecimal? limit (decimal n) = some n := by
  have value := decimalValue_decimal n
  rw [readDecimal?_unsigned decimal_ne_nil (all_isDigit_decimal n) (by rwa [value]), value]

theorem not_isBlank_of_isDigit (digit : isDigit c = true) : isBlank c = false := by
  have bounds : '0' ≤ c ∧ c ≤ '9' := by simpa [isDigit] using digit
  obtain ⟨low, high⟩ : 48 ≤ c.toNat ∧ c.toNat ≤ 57 := bounds
  simp only [isBlank, Bool.or_eq_false_iff, Bool.and_eq_false_iff, decide_eq_false_iff_not,
    beq_eq_false_iff_ne]
  omega

theorem trimStart_indented (blank : Blanks indent) (cs : List Char) :
    trimStart (indent ++ cs) = trimStart cs :=
  List.dropWhile_append_of_pos fun c among => (blank c among).1

theorem trimStart_of_head (solid : ∀ c ∈ cs.head?, isBlank c = false) : trimStart cs = cs := by
  cases cs with
  | nil => rfl
  | cons c cs =>
    have first : isBlank c = false := solid c rfl
    exact List.dropWhile_cons_of_neg (by simp [first])

theorem length_trimEnd_le (cs : List Char) : (trimEnd cs).length ≤ cs.length := by
  have shorter := (List.dropWhile_suffix (l := cs.reverse) isBlank).length_le
  rw [List.length_reverse] at shorter
  rwa [trimEnd, List.length_reverse]

theorem trimStart_of_trimmed (trimmed : trim cs = cs) : trimStart cs = cs := by
  have whole : cs.length ≤ (trimStart cs).length := by
    calc cs.length = (trim cs).length := by rw [trimmed]
      _ ≤ (trimStart cs).length := length_trimEnd_le _
  exact (List.dropWhile_suffix isBlank).eq_of_length_le whole

theorem trimmed_ne_append_blank (trimmed : trim cs = cs) (blank : isBlank c = true)
    (front : List Char) : cs ≠ front ++ [c] := by
  rintro rfl
  have same : trimEnd front = front ++ [c] := by
    calc trimEnd front = trimEnd (front ++ [c]) := by simp [trimEnd, blank]
      _ = trim (front ++ [c]) := by rw [trim, trimStart_of_trimmed trimmed]
      _ = front ++ [c] := trimmed
  have shorter := length_trimEnd_le front
  rw [same, List.length_append, List.length_singleton] at shorter
  omega

end Text

namespace Backtrace

open Text

/-- A symbol on its line. An inlined one has no number, and is not taken for a numbered one or for a
position. -/
structure PrintedSymbol where
  number : Option Nat
  symbol : String
  nonempty : symbol ≠ ""
  trimmed : trim symbol.toList = symbol.toList
  oneLine : '\n' ∉ symbol.toList
  unplaced : number = none → ¬ "at ".toList <+: symbol.toList
  unnumbered : number = none →
    ∀ digits rest, digits.all isDigit → symbol.toList ≠ digits ++ ": ".toList ++ rest

structure PrintedPlace where
  file : String
  line : UInt32
  column : Nat
  oneLine : '\n' ∉ file.toList

structure PrintedFrame where
  symbol : PrintedSymbol
  place : Option PrintedPlace

/-- What stands on a line that is not blank. -/
inductive Item where
  | symbol (s : PrintedSymbol)
  | place (p : PrintedPlace)

def PrintedSymbol.text (s : PrintedSymbol) : List Char :=
  match s.number with
  | some n => decimal n ++ ": ".toList ++ s.symbol.toList
  | none => s.symbol.toList

def PrintedPlace.position (p : PrintedPlace) : List Char :=
  p.file.toList ++ ":".toList ++ decimal p.line.toNat ++ ":".toList ++ decimal p.column

def Item.text : Item → List Char
  | .symbol s => s.text
  | .place p => "at ".toList ++ p.position

def PrintedFrame.items (f : PrintedFrame) : List Item :=
  .symbol f.symbol :: (f.place.map Item.place).toList

def PrintedFrame.site (f : PrintedFrame) : CallSite :=
  { CallSite.ofSymbol f.symbol.symbol with
    file := f.place.map PrintedPlace.file
    line := f.place.map PrintedPlace.line }

/-- The lines on which the items are printed: each on its own one, after some blanks, with blank
lines anywhere. -/
inductive Printed : List Item → List (List Char) → Prop
  | nothing : Printed [] []
  | blank {items lines} (blanks : List Char) (blank : Blanks blanks) (rest : Printed items lines) :
      Printed items (blanks :: lines)
  | item {items lines} (indent : List Char) (item : Item) (blank : Blanks indent)
      (rest : Printed items lines) : Printed (item :: items) ((indent ++ item.text) :: lines)

def Item.line : Item → Line
  | .symbol s => .symbol s.symbol.toList
  | .place p => .place p.position

variable {items : List Item} {lines : List (List Char)} {indent cs : List Char}

theorem ofChars_indented (blank : Blanks indent) (cs : List Char) :
    Line.ofChars (indent ++ cs) = Line.ofChars cs := by
  unfold Line.ofChars
  rw [trimStart_indented blank]

theorem ofChars_blanks (blank : Blanks cs) : Line.ofChars cs = .blank := by
  rw [← List.append_nil cs, ofChars_indented blank]
  rfl

theorem PrintedSymbol.ofChars_inlined (s : PrintedSymbol) (inlined : s.number = none) :
    Line.ofChars s.symbol.toList = .symbol s.symbol.toList := by
  have whole := trimStart_of_trimmed s.trimmed
  have nonempty : s.symbol.toList ≠ [] := by simpa using s.nonempty
  have unplaced := stripLead?_eq_none_iff.mpr (s.unplaced inlined)
  unfold Line.ofChars
  simp only [whole, nonempty, ↓reduceIte, unplaced]
  split
  · next digits rest cut =>
    have unnumbered : ¬ digits.all isDigit := fun all =>
      s.unnumbered inlined digits rest all (eq_of_splitFirst? cut)
    rw [if_neg unnumbered, s.trimmed]
  · rw [s.trimmed]

theorem PrintedSymbol.ofChars_numbered (s : PrintedSymbol) (n : Nat) :
    Line.ofChars (decimal n ++ ": ".toList ++ s.symbol.toList) = .symbol s.symbol.toList := by
  obtain ⟨d, digits, number⟩ := List.exists_cons_of_ne_nil (decimal_ne_nil (n := n))
  have digit : isDigit d = true := isDigit_of_mem_decimal (n := n) (by simp [number])
  have whole : trimStart (decimal n ++ ": ".toList ++ s.symbol.toList) =
      decimal n ++ ": ".toList ++ s.symbol.toList := by
    refine trimStart_of_head fun c first => ?_
    obtain rfl : d = c := by simpa [number] using first
    exact not_isBlank_of_isDigit digit
  have unplaced : stripLead? "at ".toList (decimal n ++ ": ".toList ++ s.symbol.toList) = none := by
    refine stripLead?_eq_none_iff.mpr ?_
    rintro ⟨rest, same⟩
    obtain rfl : 'a' = d := by simpa [number] using congrArg List.head? same
    exact absurd digit (by decide)
  have cut : splitFirst? [':', ' '] (decimal n ++ ": ".toList ++ s.symbol.toList) =
      some (decimal n, s.symbol.toList) := by
    refine splitFirst?_append fun found => ?_
    have among : ' ' ∈ decimal n ++ [':'] := found.subset (by simp)
    simp [not_mem_decimal (show isDigit ' ' = false by decide)] at among
  have nonempty : decimal n ++ ": ".toList ++ s.symbol.toList ≠ [] := by simp
  unfold Line.ofChars
  simp only [whole, nonempty, ↓reduceIte, unplaced, cut, all_isDigit_decimal, s.trimmed]

theorem Item.ofChars_text (i : Item) : Line.ofChars i.text = i.line := by
  cases i with
  | symbol s =>
    change Line.ofChars s.text = .symbol s.symbol.toList
    unfold PrintedSymbol.text
    split
    · exact s.ofChars_numbered _
    · next inlined => exact s.ofChars_inlined inlined
  | place p =>
    have lead : stripLead? "at ".toList ("at ".toList ++ p.position) = some p.position :=
      stripLead?_eq_some_iff.mpr rfl
    have whole : trimStart ("at ".toList ++ p.position) = "at ".toList ++ p.position :=
      trimStart_of_head fun c first => by
        obtain rfl : 'a' = c := by simpa using first
        decide
    change Line.ofChars ("at ".toList ++ p.position) = .place p.position
    have nonempty : "at ".toList ++ p.position ≠ [] := by simp
    unfold Line.ofChars
    simp only [whole, nonempty, ↓reduceIte, lead]

theorem append_ne_append_singleton {c : Char} (nonempty : cs ≠ [])
    (other : ∀ front, cs ≠ front ++ [c]) (before front : List Char) :
    before ++ cs ≠ front ++ [c] := by
  intro same
  obtain rfl | ⟨init, last, rfl⟩ := List.eq_nil_or_concat' cs
  · exact nonempty rfl
  · rw [← List.append_assoc] at same
    obtain rfl := (List.append_singleton_inj.mp same).2
    exact other init rfl

theorem decimal_ne_append_return (n : Nat) (front : List Char) : decimal n ≠ front ++ ['\r'] := by
  intro same
  have among : '\r' ∈ decimal n := by simp [same]
  exact not_mem_decimal (by decide) among

theorem Item.indented_ne_append_return (i : Item) (indent front : List Char) :
    indent ++ i.text ≠ front ++ ['\r'] := by
  cases i with
  | symbol s =>
    have nonempty : s.symbol.toList ≠ [] := by simpa using s.nonempty
    have solid := trimmed_ne_append_blank s.trimmed (show isBlank '\r' = true by decide)
    change indent ++ s.text ≠ front ++ ['\r']
    unfold PrintedSymbol.text
    split
    · rw [← List.append_assoc]
      exact append_ne_append_singleton nonempty solid _ front
    · exact append_ne_append_singleton nonempty solid _ front
  | place p =>
    change indent ++ ("at ".toList ++ p.position) ≠ front ++ ['\r']
    unfold PrintedPlace.position
    rw [← List.append_assoc, ← List.append_assoc]
    exact append_ne_append_singleton decimal_ne_nil (decimal_ne_append_return p.column) _ front

theorem setPlace_position (p : PrintedPlace) (site : CallSite) :
    setPlace p.position site = { site with file := some p.file, line := some p.line } := by
  have colon (n : Nat) : ¬ [':'] <:+: [':'].tail ++ decimal n := fun found =>
    not_mem_decimal (show isDigit ':' = false by decide) (found.subset (by simp))
  have column : splitLast? [':'] p.position =
      some (p.file.toList ++ ":".toList ++ decimal p.line.toNat, decimal p.column) :=
    splitLast?_append (colon p.column)
  have row : splitLast? [':'] (p.file.toList ++ ":".toList ++ decimal p.line.toNat) =
      some (p.file.toList, decimal p.line.toNat) :=
    splitLast?_append (colon p.line.toNat)
  have number : readDecimal? UInt32.size (decimal p.line.toNat) = some p.line.toNat :=
    readDecimal?_decimal p.line.toNat_lt
  simp only [setPlace, column, row, number, UInt32.ofNat_toNat, String.ofList_toList]

theorem Item.oneLine (i : Item) : '\n' ∉ i.text := by
  have digit (n : Nat) : '\n' ∉ decimal n := not_mem_decimal (by decide)
  cases i with
  | symbol s =>
    change '\n' ∉ s.text
    unfold PrintedSymbol.text
    split <;> simp [digit, s.oneLine]
  | place p =>
    change '\n' ∉ "at ".toList ++ p.position
    simp [PrintedPlace.position, digit, p.oneLine]

theorem Printed.oneLine (printed : Printed items lines) : ∀ line ∈ lines, '\n' ∉ line := by
  induction printed with
  | nothing => simp
  | blank blanks blank _ ih =>
    rintro line (_ | ⟨_, among⟩)
    · exact fun feed => (blank '\n' feed).2 rfl
    · exact ih line among
  | item indent i blank _ ih =>
    rintro line (_ | ⟨_, among⟩)
    · rw [List.mem_append, not_or]
      exact ⟨fun feed => (blank '\n' feed).2 rfl, i.oneLine⟩
    · exact ih line among

theorem Printed.ofChars_dropReturn (printed : Printed items lines) :
    ∀ line ∈ lines, Line.ofChars (dropReturn line) = Line.ofChars line := by
  induction printed with
  | nothing => simp
  | blank blanks blank _ ih =>
    rintro line (_ | ⟨_, among⟩)
    · have within := (dropReturn_leads blanks).subset
      rw [ofChars_blanks blank, ofChars_blanks fun c among => blank c (within among)]
    · exact ih line among
  | item indent i blank _ ih =>
    rintro line (_ | ⟨_, among⟩)
    · rcases eq_dropReturn_or (indent ++ i.text) with same | ended
      · rw [← same]
      · exact absurd ended (i.indented_ne_append_return indent _)
    · exact ih line among

theorem sites_append_blank (lines : List Line) : sites (lines ++ [.blank]) = sites lines := by
  simp [sites, addLine]

theorem Printed.sites_lines (printed : Printed items lines) :
    sites ((Text.lines (['\n'].intercalate lines)).map Line.ofChars) =
      sites (lines.map Line.ofChars) := by
  obtain rfl | ⟨front, last, rfl⟩ := List.eq_nil_or_concat' lines
  · rfl
  · have alike := printed.ofChars_dropReturn
    have dropped : front.map (Line.ofChars ∘ dropReturn) = front.map Line.ofChars :=
      List.map_congr_left fun line among => alike line (by simp [among])
    rw [lines_intercalate printed.oneLine, List.dropLast_concat, List.getLastD_concat,
      List.map_append, List.map_append, List.map_map, dropped]
    split
    · next nothing =>
      subst nothing
      rw [List.map_nil, List.append_nil]
      exact (sites_append_blank _).symm
    · rfl

theorem Printed.foldl_addLine (printed : Printed items lines) (sites : List CallSite) :
    (lines.map Line.ofChars).foldl addLine sites = (items.map Item.line).foldl addLine sites := by
  induction printed generalizing sites with
  | nothing => rfl
  | blank blanks blank _ ih =>
    rw [List.map_cons, List.foldl_cons, ofChars_blanks blank]
    exact ih sites
  | item indent i blank _ ih =>
    rw [List.map_cons, List.foldl_cons, ofChars_indented blank, i.ofChars_text]
    exact ih _

theorem PrintedFrame.foldl_addLine (f : PrintedFrame) (sites : List CallSite) :
    (f.items.map Item.line).foldl addLine sites = f.site :: sites := by
  obtain ⟨symbol, place⟩ := f
  obtain ⟨file, line⟩ := CallSite.ofSymbol_unplaced symbol.symbol
  cases place with
  | none =>
    change CallSite.ofSymbol (String.ofList symbol.symbol.toList) :: sites = _
    simp only [site, String.ofList_toList, Option.map_none, ← file, ← line]
  | some place =>
    change setPlace place.position (CallSite.ofSymbol (String.ofList symbol.symbol.toList)) ::
      sites = _
    rw [setPlace_position, String.ofList_toList]
    rfl

theorem foldl_addLine_frames (frames : List PrintedFrame) (sites : List CallSite) :
    ((frames.flatMap PrintedFrame.items).map Item.line).foldl addLine sites =
      (frames.map PrintedFrame.site).reverse ++ sites := by
  induction frames generalizing sites with
  | nil => rfl
  | cons f frames ih =>
    rw [List.flatMap_cons, List.map_append, List.foldl_append, f.foldl_addLine, ih]
    simp

/-- The frames of a printed backtrace are read back from its text: one for each symbol, in their
order, and each with the position that was printed for it and no other. -/
theorem printed_frames_are_read_back {frames : List PrintedFrame} {lines : List (List Char)}
    (printed : Printed (frames.flatMap PrintedFrame.items) lines) :
    CallTrace.ofBacktrace (String.ofList (['\n'].intercalate lines)) =
      ⟨frames.map PrintedFrame.site⟩ := by
  unfold CallTrace.ofBacktrace
  rw [String.toList_ofList, printed.sites_lines, sites, printed.foldl_addLine,
    foldl_addLine_frames, List.append_nil, List.reverse_reverse]

def leafFrame : PrintedFrame where
  symbol :=
    { number := some 1
      symbol := "app::leaf"
      nonempty := by decide
      trimmed := by decide
      oneLine := by decide
      unplaced := by simp
      unnumbered := by simp }
  place := none

def helperFrame : PrintedFrame where
  symbol :=
    { number := none
      symbol := "app::inlined_helper"
      nonempty := by decide
      trimmed := by decide
      oneLine := by decide
      unplaced := by decide
      unnumbered := by
        intro _ digits rest _ same
        have blank : ' ' ∈ "app::inlined_helper".toList := by simp [same]
        exact absurd blank (by decide) }
  place := some { file := "c:/my app/part:one.rs", line := 7, column := 5, oneLine := by decide }

theorem inlined_frame_keeps_its_place :
    let lines := ["   1: app::leaf".toList, [], "      app::inlined_helper".toList,
      "             at c:/my app/part:one.rs:7:5".toList, []]
    Printed ([leafFrame, helperFrame].flatMap PrintedFrame.items) lines ∧
      CallTrace.ofBacktrace (String.ofList (['\n'].intercalate lines)) =
        ⟨[{ path := "app", routine := "leaf" },
          { path := "app", routine := "inlined_helper", file := some "c:/my app/part:one.rs",
            line := some 7 }]⟩ := by
  intro lines
  have printed : Printed ([leafFrame, helperFrame].flatMap PrintedFrame.items) lines :=
    .item "   ".toList _ (by decide) <| .blank [] (by decide) <|
      .item "      ".toList _ (by decide) <| .item "             ".toList _ (by decide) <|
        .blank [] (by decide) .nothing
  refine ⟨printed, (printed_frames_are_read_back printed).trans ?_⟩
  decide

end Backtrace

end ResumableTasks
