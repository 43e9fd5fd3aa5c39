import ResumableTasks.Proofs.DisagreeingCandidates
/-!
Sites with a line. Where several routines share a name, a site is told apart by the body that
contains its line. The look-up takes the first such body of the whole module, so a body of another
name that was declared before hides the one that is meant.
-/
namespace ResumableTasks

def CatalogEntry.covers (e : CatalogEntry) (line : UInt32) : Bool := e.lines.any (·.contains line)

namespace CatalogModule

def named (m : CatalogModule) (name : String) : List Signature :=
  (m.entries.map CatalogEntry.signature).filter (·.name = name)

def namedAt (m : CatalogModule) (name : String) (line : UInt32) : List CatalogEntry :=
  m.entries.filter fun e => e.signature.name = name && e.covers line

def Leads (m : CatalogModule) (name : String) (line : UInt32) : Prop :=
  ∃ e, m.entries.find? (·.covers line) = some e ∧ e.signature.name = name

end CatalogModule

namespace Catalog

variable {c : Catalog} {site : CallSite} {line : UInt32} {m : CatalogModule}
  {candidates : List Signature}

def paired : List Signature → Bool
  | [a, b] => a.isWovenPair b || b.isWovenPair a
  | _ => false

theorem candidates_of_module (found : c.module? site.path = some m) :
    c.candidates site.path site.routine = .ok (m.named site.routine) := by
  unfold candidates
  rw [found]
  rfl

theorem resolve_unpaired (known : c.candidates site.path site.routine = .ok candidates)
    (several : 2 ≤ candidates.length) (unpaired : ¬ paired candidates) :
    c.resolve site = c.resolveMany site candidates := by
  unfold resolve
  rw [known]
  match candidates with
  | [] => simp at several
  | [only] => simp at several
  | [a, b] =>
    obtain ⟨straight, turned⟩ : ¬ a.isWovenPair b ∧ ¬ b.isWovenPair a := by
      simpa [paired] using unpaired
    simp only [straight, turned, Bool.false_eq_true, ↓reduceIte]
  | a :: b :: d :: rest => rfl

theorem resolveByLine_readable (found : c.module? site.path = some m)
    (readable : m.bodiesHidden = false) :
    c.resolveByLine site line candidates =
      match m.entries.find? (·.covers line) with
      | some e =>
        if e.signature.name = site.routine then (.ofPausable e.signature.isPausable, none)
        else resolveByAll site candidates
      | none => resolveByAll site candidates := by
  have located : c.locate site.path line =
      .ok ((m.entries.find? (·.covers line)).map CatalogEntry.signature) := by
    unfold locate
    rw [found]
    simp only [readable]
    rfl
  unfold resolveByLine
  rw [located]
  cases m.entries.find? (·.covers line) <;> rfl

theorem resolveByAll_eq_ofPausable_iff {s : Signature} (among : s ∈ candidates) :
    resolveByAll site candidates = (.ofPausable s.isPausable, none) ↔
      ∀ other ∈ candidates, other.isPausable = s.isPausable := by
  have none_capable : candidates.countP Signature.isPausable = 0 ↔
      ∀ other ∈ candidates, other.isPausable = false := by simp [List.countP_eq_zero]
  have all_capable : candidates.countP Signature.isPausable = candidates.length ↔
      ∀ other ∈ candidates, other.isPausable = true := List.countP_eq_length
  simp only [resolveByAll]
  cases said : s.isPausable with
  | false =>
    rw [← none_capable]
    split
    · next incapable => simp [incapable, Classification.ofPausable]
    · next capable =>
      split <;> simp [capable, Classification.ofPausable]
  | true =>
    have capable : candidates.countP Signature.isPausable ≠ 0 := by
      intro incapable
      rw [none_capable.mp incapable s among] at said
      cases said
    rw [← all_capable, if_neg capable]
    split
    · next uniform => simp [uniform, Classification.ofPausable]
    · next mixed => simp [mixed]

/-- A site whose line tells routines of one name apart: the bodies of its module can be read,
several routines have its name, not just one and its woven form, and the body of exactly one of them
contains the line. -/
structure Pinpoints (c : Catalog) (site : CallSite) (line : UInt32) (m : CatalogModule)
    (e : CatalogEntry) : Prop where
  lined : site.line = some line
  usable : 0 < line
  found : c.module? site.path = some m
  readable : m.bodiesHidden = false
  several : 2 ≤ (m.named site.routine).length
  unpaired : ¬ paired (m.named site.routine)
  only : m.namedAt site.routine line = [e]

namespace Pinpoints

variable {e : CatalogEntry}

theorem mem_namedAt (pinned : c.Pinpoints site line m e) :
    e ∈ m.entries ∧ e.signature.name = site.routine ∧ e.covers line = true := by
  have listed : e ∈ m.namedAt site.routine line := by simp [pinned.only]
  unfold CatalogModule.namedAt at listed
  simpa using listed

theorem mem_named (pinned : c.Pinpoints site line m e) :
    e.signature ∈ m.named site.routine := by
  obtain ⟨declared, name, -⟩ := pinned.mem_namedAt
  unfold CatalogModule.named
  simp only [List.mem_filter, List.mem_map, decide_eq_true_eq]
  exact ⟨⟨e, declared, rfl⟩, name⟩

theorem eq_of_covers (pinned : c.Pinpoints site line m e) {other : CatalogEntry}
    (declared : other ∈ m.entries) (name : other.signature.name = site.routine)
    (covers : other.covers line = true) : other = e := by
  have listed : other ∈ m.namedAt site.routine line := by
    unfold CatalogModule.namedAt
    simp [declared, name, covers]
  rw [pinned.only] at listed
  exact List.mem_singleton.mp listed

theorem resolve_eq (pinned : c.Pinpoints site line m e) :
    c.resolve site = c.resolveByLine site line (m.named site.routine) := by
  have known : site.knownLine = some line := by
    simp [CallSite.knownLine, pinned.lined, pinned.usable]
  rw [resolve_unpaired (candidates_of_module pinned.found) pinned.several pinned.unpaired]
  unfold resolveMany
  rw [known]

theorem resolve_iff (pinned : c.Pinpoints site line m e) :
    c.resolve site = (.ofPausable e.signature.isPausable, none) ↔
      m.Leads site.routine line ∨
        ∀ s ∈ m.named site.routine, s.isPausable = e.signature.isPausable := by
  obtain ⟨declared, -, covers⟩ := pinned.mem_namedAt
  rw [pinned.resolve_eq, resolveByLine_readable pinned.found pinned.readable]
  unfold CatalogModule.Leads
  cases first : m.entries.find? (·.covers line) with
  | none =>
    have uncovered := List.find?_eq_none.mp first e declared
    exact absurd covers uncovered
  | some located =>
    by_cases name : located.signature.name = site.routine
    · have covered := List.find?_some first
      obtain rfl := pinned.eq_of_covers (List.mem_of_find?_eq_some first) name covered
      simp [name]
    · simp only [name, ↓reduceIte, Option.some.injEq, exists_eq_left', false_or]
      exact resolveByAll_eq_ofPausable_iff pinned.mem_named

end Pinpoints

end Catalog

namespace Classifier

/-- A classification is decided by one routine: it says what that routine is, and no ambiguity is
recorded about the site. -/
structure Decides (site : CallSite) (s : Signature) (classified : Classification × Classifier) :
    Prop where
  answer : classified.1 = .ofPausable s.isPausable
  unrecorded : classified.2.ambiguities.filter (·.site = site) = []

theorem classify_resolved (catalog : Catalog) (config : ClassifierConfig)
    (calls : List ClassifierCall) (site : CallSite) :
    let past := ClassifierCall.inquiries config catalog (calls ++ [.classify site])
    let classified := (({ catalog, config } : Classifier).answerAll calls).2.classify site
    let resolved := (Inquiry.catalogOf past site).resolve site
    classified.1 = resolved.1 ∧
      classified.2.ambiguities.filter (·.site = site) = resolved.2.toList := by
  intro past classified resolved
  obtain ⟨answered, recorded⟩ := classify_after catalog config calls site
  constructor
  · exact answered
  · have listed : classified.2.ambiguities = Inquiry.ambiguities past := recorded
    rw [listed, Inquiry.ambiguities_of_site, Catalog.resolve_ambiguity]
    cases found : past.find? (·.site = site) with
    | none =>
      have moment : Inquiry.catalogOf past site = {} := by simp [Inquiry.catalogOf, found]
      rw [moment]
      rfl
    | some first =>
      have about : first.site = site := by simpa using List.find?_some found
      have moment : Inquiry.catalogOf past site = first.catalog := by
        simp [Inquiry.catalogOf, found]
      rw [moment]
      subst about
      by_cases said : first.answer = .ambiguousResolvedCapable
      · have said' : (first.catalog.resolve first.site).1 = .ambiguousResolvedCapable := said
        simp [said, said', Inquiry.ambiguity]
      · have said' : ¬ (first.catalog.resolve first.site).1 = .ambiguousResolvedCapable := said
        simp [said, said']

/-- After any history, a site whose line tells routines of one name apart is decided by the routine
with that line exactly if the first body of the module that contains the line has the site's name,
or if all routines of that name are alike. -/
theorem enclosing_overload_decides_iff (catalog : Catalog) (config : ClassifierConfig)
    (calls : List ClassifierCall) {site : CallSite} {line : UInt32} {m : CatalogModule}
    {e : CatalogEntry}
    (pinned : (Inquiry.catalogOf (ClassifierCall.inquiries config catalog
      (calls ++ [.classify site])) site).Pinpoints site line m e) :
    Decides site e.signature
        ((({ catalog, config } : Classifier).answerAll calls).2.classify site) ↔
      m.Leads site.routine line ∨
        ∀ s ∈ m.named site.routine, s.isPausable = e.signature.isPausable := by
  obtain ⟨answered, recorded⟩ := classify_resolved catalog config calls site
  rw [← pinned.resolve_iff]
  constructor
  · rintro ⟨answer, unrecorded⟩
    rw [recorded] at unrecorded
    exact Prod.ext (answered.symm.trans answer) (Option.toList_eq_nil_iff.mp unrecorded)
  · intro resolved
    rw [resolved] at answered recorded
    exact ⟨answered, recorded⟩

def readOverloads : List Declaration :=
  [.routine "codec" { name := "read", params := ["u8"], effects := ["Pausable"] } (some ⟨10, 20⟩),
    .routine "codec" { name := "read", params := ["u16"] } (some ⟨30, 40⟩)]

def enclosingBody : Declaration := .routine "codec" { name := "outer" } (some ⟨1, 100⟩)

def plainReadSite : CallSite := { path := "codec", routine := "read", line := some 35 }

def plainRead : CatalogEntry := ⟨{ name := "read", params := ["u16"] }, some ⟨30, 40⟩⟩

theorem later_enclosing_body_is_harmless :
    let catalog := ({} : Catalog).declareAll (readOverloads ++ [enclosingBody])
    let m := (catalog.module? "codec").getD {}
    let calls := [.classify { plainReadSite with line := some 99 }]
    catalog.Pinpoints plainReadSite 35 m plainRead ∧
      Decides plainReadSite plainRead.signature
        ((({ catalog } : Classifier).answerAll calls).2.classify plainReadSite) := by
  intro catalog m calls
  have pinned : catalog.Pinpoints plainReadSite 35 m plainRead := by
    constructor <;> decide
  have moment : Inquiry.catalogOf (ClassifierCall.inquiries {} catalog
      (calls ++ [.classify plainReadSite])) plainReadSite = catalog := by decide
  have decided := enclosing_overload_decides_iff catalog {} calls (moment ▸ pinned)
  exact ⟨pinned, decided.mpr (.inl ⟨plainRead, by decide, by decide⟩)⟩

theorem earlier_enclosing_body_hides_overload :
    let catalog := ({} : Catalog).declareAll (enclosingBody :: readOverloads)
    let m := (catalog.module? "codec").getD {}
    let classified := ({ catalog } : Classifier).classify plainReadSite
    catalog.Pinpoints plainReadSite 35 m plainRead ∧
      classified.1 = .ambiguousResolvedCapable ∧
      classified.2.ambiguities = [⟨plainReadSite, 2, 1⟩] ∧
      ¬ Decides plainReadSite plainRead.signature classified := by
  intro catalog m classified
  have pinned : catalog.Pinpoints plainReadSite 35 m plainRead := by
    constructor <;> decide
  have answer : classified.1 = .ambiguousResolvedCapable := by decide
  have recorded : classified.2.ambiguities = [⟨plainReadSite, 2, 1⟩] := by decide
  refine ⟨pinned, answer, recorded, fun decided => ?_⟩
  have plain := decided.answer
  rw [answer] at plain
  exact absurd plain (by decide)

end Classifier

end ResumableTasks
