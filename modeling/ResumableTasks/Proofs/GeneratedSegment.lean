import ResumableTasks.Proofs.CountedFrames
import ResumableTasks.Proofs.DecoratedSymbol
/-!
Closures and shims in symbols: a segment of the path begins with a brace. Such a frame is generated
and never counted where the symbol is a plain path. Where it begins with a qualifier, all that
follows is taken for the routine, and only the first segment after the qualifier is looked at.
-/
namespace ResumableTasks.Symbol

open Text

variable {cs before after front back kept : List Char} {c : Char}

/-- A segment of the path begins with a brace. Nothing in brackets is part of the path, neither
generic arguments nor a qualifier. -/
def HasGeneratedSegment (symbol : List Char) : Prop :=
  ∃ before after, symbol = before ++ '\x7b' :: after ∧ (before = [] ∨ colons <:+ before) ∧
    openBrackets before = 0

def GeneratedPath (path : List Char) : Prop :=
  ∃ front back, path = front ++ '\x7b' :: back ∧ (front = [] ∨ colons <:+ front)

theorem HasGeneratedSegment.dropHash (segment : HasGeneratedSegment cs) :
    HasGeneratedSegment (dropHash cs) := by
  obtain ⟨before, after, whole, starts, closed⟩ := segment
  rcases eq_dropHash_or cs with same | ⟨hash, hashed, parted⟩
  · exact ⟨before, after, same.trans whole, starts, closed⟩
  · have free : '\x7b' ∉ colons ++ hash := by
      have unhashed : '\x7b' ∉ hash := isHash_only hashed (by decide) (by decide)
      simp [colons, unhashed]
    have parts : before ++ '\x7b' :: after = Symbol.dropHash cs ++ (colons ++ hash) ++ [] := by
      rw [← whole, List.append_nil, ← List.append_assoc]
      exact parted
    rcases split_around free parts with ⟨y, -, nothing⟩ | ⟨x, same, -⟩
    · simp at nothing
    · exact ⟨before, x, same, starts, closed⟩

theorem dropColonsBack_keeps (solid : c ≠ ':') (front kept : List Char) :
    ∃ more, dropColonsBack (front ++ c :: kept) = more ++ c :: kept := by
  match front with
  | [] => exact ⟨[], dropColonsBack_solid (by simpa using solid)⟩
  | [d] =>
    refine ⟨[d], ?_⟩
    simp [dropColonsBack, solid]
  | d :: e :: front =>
    unfold dropColonsBack
    split
    · next rest same =>
      obtain ⟨-, -, rfl⟩ : d = ':' ∧ e = ':' ∧ front ++ c :: kept = rest := by simpa using same
      exact ⟨front, rfl⟩
    · exact ⟨d :: e :: front, rfl⟩

theorem outsideGenerics_keeps (solid : c ≠ ':') (front kept : List Char) (depth : Nat)
    (cs : List Char) :
    ∃ more, outsideGenerics (front ++ c :: kept) depth cs = more ++ c :: kept := by
  induction cs generalizing front depth with
  | nil => exact ⟨front, rfl⟩
  | cons d cs ih =>
    rw [outsideGenerics]
    split
    · split
      · obtain ⟨more, same⟩ := dropColonsBack_keeps solid front kept
        rw [same]
        exact ih more _
      · exact ih front _
    · split
      · exact ih front _
      · split
        · exact ih (d :: front) _
        · exact ih front _

theorem generatedPath_of_segment (segment : HasGeneratedSegment cs) :
    GeneratedPath (dropGenerics cs) := by
  obtain ⟨before, after, rfl, starts, closed⟩ := segment
  have brace : outsideGenerics (outsideGenerics [] 0 before) 0 ('\x7b' :: after) =
      outsideGenerics ([] ++ '\x7b' :: outsideGenerics [] 0 before) 0 after := rfl
  obtain ⟨more, kept⟩ := outsideGenerics_keeps (c := '\x7b') (by decide) []
    (outsideGenerics [] 0 before) 0 after
  refine ⟨(outsideGenerics [] 0 before).reverse, more.reverse, ?_, ?_⟩
  · have depth : before.foldl depthAfter 0 = 0 := closed
    rw [dropGenerics, outsideGenerics_append, depth, brace, kept]
    simp
  · rcases starts with rfl | ⟨b, rfl⟩
    · exact .inl rfl
    · have depth : b.foldl depthAfter 0 = 0 := by
        have whole : (b ++ colons).foldl depthAfter 0 = 0 := closed
        rwa [List.foldl_append] at whole
      refine .inr ⟨(outsideGenerics [] 0 b).reverse, ?_⟩
      rw [outsideGenerics_append, depth]
      simp [colons, outsideGenerics]

theorem splitPath_generated (generated : GeneratedPath cs) :
    (splitPath cs).2.head? = some '\x7b' ∨ '\x7b' ∈ (splitPath cs).1 := by
  obtain ⟨front, back, rfl, starts⟩ := generated
  unfold splitPath
  split
  · next path routine cut =>
    rcases split_around (by decide) (eq_of_splitLast? cut) with ⟨y, rfl, rfl⟩ | ⟨x, rfl, -⟩
    · left
      have last := not_infix_of_splitLast? (by decide) cut
      have ends : colons <:+ path ++ colons ++ y := starts.resolve_left (by simp [colons])
      have tail : ':' :: y <:+ path ++ colons ++ y := ⟨path ++ [':'], by simp [colons]⟩
      -- Anything between the last colons and the brace would end with colons further right.
      cases y with
      | nil => rfl
      | cons d y =>
        have two : colons.length ≤ (':' :: d :: y).length := by simp [colons]
        have later : colons <:+ ':' :: d :: y := List.suffix_of_suffix_length_le ends tail two
        exact absurd (later.isInfix.trans ⟨[], '\x7b' :: back, rfl⟩) last
    · exact .inr (by simp)
  · next uncut =>
    left
    rcases starts with rfl | ends
    · rfl
    · have within : colons <:+: front ++ '\x7b' :: back :=
        ends.isInfix.trans (List.prefix_append front _).isInfix
      have found := splitLast?_isSome within
      rw [uncut] at found
      cases found

def NeverCounted (site : CallSite) : Prop :=
  ∀ (c : Classifier) point front rest,
    (c.stackDepth ⟨point :: (front ++ site :: rest)⟩).1.mapError Error.kind =
      (c.stackDepth ⟨point :: (front ++ rest)⟩).1.mapError Error.kind

theorem neverCounted_of_unheeded {site : CallSite} (unheeded : ∀ c : Classifier, ¬ c.heeds site) :
    NeverCounted site := by
  intro c point front rest
  have same : (front ++ site :: rest).filter c.heeds = (front ++ rest).filter c.heeds := by
    rw [List.filter_append, List.filter_append, List.filter_cons_of_neg (unheeded c)]
  have reached : (front ++ site :: rest).any CallSite.isBoundary =
      (front ++ rest).any CallSite.isBoundary := by
    rw [← c.any_isBoundary_heeded, same, c.any_isBoundary_heeded]
  have depth : (toBoundary (front ++ site :: rest)).countP c.counts =
      (toBoundary (front ++ rest)).countP c.counts := by
    rw [← c.countP_heeded, same, c.countP_heeded]
  rw [(c.stackDepth_counts _).1, (c.stackDepth_counts _).1, List.tail_cons, List.tail_cons, reached,
    depth]
  split
  · rfl
  · rfl

theorem unheeded_of_isGenerated {site : CallSite} (unfiled : site.file = none)
    (generated : site.isGenerated) (c : Classifier) : ¬ c.heeds site := by
  have infrastructure : c.isInfrastructure site := by simp [Classifier.isInfrastructure, generated]
  have inner : ¬ site.isBoundary := by
    intro boundary
    obtain ⟨path, routine⟩ : site.path = CallSite.boundary.path ∧
        site.routine = CallSite.boundary.routine := by simpa [CallSite.isBoundary] using boundary
    rw [CallSite.isGenerated, unfiled, path, routine] at generated
    exact absurd generated (by decide)
  simp [Classifier.heeds, infrastructure, inner]

theorem ofSymbol_isGenerated_iff (among : '\x7b' ∈ cs) :
    (CallSite.ofSymbol (String.ofList cs)).isGenerated ↔
      (parts cs).2.head? = some '\x7b' ∨ '\x7b' ∈ (parts cs).1 := by
  have known : cs ≠ "<unknown>".toList := by
    rintro rfl
    exact absurd among (by decide)
  simp [ofSymbol_parts known, CallSite.isGenerated]

theorem parts_generated_iff (segment : HasGeneratedSegment cs) :
    ((parts cs).2.head? = some '\x7b' ∨ '\x7b' ∈ (parts cs).1) ↔
      ∀ qualifier rest, Balanced qualifier →
        Symbol.dropHash cs = '<' :: (qualifier ++ ['>']) ++ rest →
        (dropGenerics (dropColons rest)).head? = some '\x7b' ∨
          '\x7b' ∈ dropGenerics (owner qualifier) := by
  rw [parts_eq]
  cases qualified : qualifier? (Symbol.dropHash cs) with
  | none =>
    have plain := splitPath_generated (generatedPath_of_segment segment.dropHash)
    refine iff_of_true plain fun qualifier rest balanced whole => ?_
    have found := qualifier?_eq_some_iff.mpr ⟨balanced, whole⟩
    rw [qualified] at found
    cases found
  | some cut =>
    obtain ⟨qualifier, rest⟩ := cut
    obtain ⟨balanced, whole⟩ := qualifier?_eq_some_iff.mp qualified
    constructor
    · intro generated other remainder balancedOther same
      have found := qualifier?_eq_some_iff.mpr ⟨balancedOther, same⟩
      rw [qualified] at found
      cases found
      exact generated
    · intro given
      exact given qualifier rest balanced whole

/-- A frame with a generated segment in its symbol is known for generated, and so not counted under
any settings, exactly if the symbol without its hash does not begin with a qualifier, or a brace
begins what follows the qualifier, or the type or trait that stands for the path has one outside
its generic arguments. -/
theorem generated_segment_is_recognised_iff {symbol : String}
    (segment : HasGeneratedSegment symbol.toList) :
    let site := CallSite.ofSymbol symbol
    (site.isGenerated ∧ NeverCounted site) ↔
      ∀ qualifier rest, Balanced qualifier →
        Symbol.dropHash symbol.toList = '<' :: (qualifier ++ ['>']) ++ rest →
        (dropGenerics (dropColons rest)).head? = some '\x7b' ∨
          '\x7b' ∈ dropGenerics (owner qualifier) := by
  intro site
  obtain ⟨cs, rfl⟩ : ∃ cs, symbol = String.ofList cs := ⟨_, String.ofList_toList.symm⟩
  rw [String.toList_ofList] at segment ⊢
  have among : '\x7b' ∈ cs := by
    obtain ⟨before, after, rfl, -⟩ := segment
    simp
  have unfiled : site.file = none := (CallSite.ofSymbol_unplaced _).1
  rw [← parts_generated_iff segment, ← ofSymbol_isGenerated_iff among]
  constructor
  · intro both
    exact both.1
  · intro generated
    exact ⟨generated, neverCounted_of_unheeded (unheeded_of_isGenerated unfiled generated)⟩

theorem shim_of_closure_is_recognised :
    let symbol :=
      "<app::run::\x7bclosure#0\x7d as core::ops::FnOnce<()>>::call_once::\x7bshim#0\x7d"
    HasGeneratedSegment symbol.toList ∧
      (CallSite.ofSymbol symbol).isGenerated ∧ NeverCounted (CallSite.ofSymbol symbol) := by
  intro symbol
  have segment : HasGeneratedSegment symbol.toList :=
    ⟨"<app::run::\x7bclosure#0\x7d as core::ops::FnOnce<()>>::call_once".toList ++ colons,
      "shim#0\x7d".toList, by decide, .inr (List.suffix_append _ _), by decide⟩
  refine ⟨segment, (generated_segment_is_recognised_iff segment).mpr ?_⟩
  intro qualifier rest balanced whole
  have found := qualifier?_eq_some_iff.mpr ⟨balanced, whole⟩
  have known : qualifier? (Symbol.dropHash symbol.toList) =
      some ("app::run::\x7bclosure#0\x7d as core::ops::FnOnce<()>".toList,
        "::call_once::\x7bshim#0\x7d".toList) := by decide
  rw [known] at found
  cases found
  exact .inr (by decide)

theorem closure_of_method_is_counted :
    let symbol := "<app::Steps as weft::task::Routine>::execute::\x7b\x7bclosure\x7d\x7d"
    let site := CallSite.ofSymbol symbol
    let c : Classifier := { config := { runtimeNamespace := "app::" } }
    HasGeneratedSegment symbol.toList ∧
      site = { path := "app::Steps", routine := "execute::\x7b\x7bclosure\x7d\x7d" } ∧
      site.isGenerated = false ∧
      (c.stackDepth ⟨[.boundary, site, .boundary]⟩).1.toOption = some 1 ∧
      (c.stackDepth ⟨[.boundary, .boundary]⟩).1.toOption = some 0 := by
  intro symbol site c
  have segment : HasGeneratedSegment symbol.toList :=
    ⟨"<app::Steps as weft::task::Routine>::execute".toList ++ colons,
      "\x7bclosure\x7d\x7d".toList, by decide, .inr (List.suffix_append _ _), by decide⟩
  exact ⟨segment, by decide, by decide, by decide, by decide⟩

end ResumableTasks.Symbol
