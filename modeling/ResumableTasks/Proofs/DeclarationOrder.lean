import Mathlib.Data.List.Induction
import Mathlib.Data.List.Permutation
import ResumableTasks.Proofs.EnclosingBody
/-!
The order of declarations. What a catalog knows of a module is what the declarations about it say,
each by itself, so in another order they only rearrange its routines. Resolution does not see the
arrangement, unless a line lies in several bodies.
-/
namespace ResumableTasks

namespace Declaration

def path : Declaration → String
  | .knownModule path => path
  | .routine path _ _ => path
  | .hideBodies path => path

def amend (m : CatalogModule) : Declaration → CatalogModule
  | .knownModule _ => m
  | .routine _ signature lines => { m with entries := m.entries ++ [⟨signature, lines⟩] }
  | .hideBodies _ => { m with bodiesHidden := true }

def entryIn (path : String) : Declaration → Option CatalogEntry
  | .routine declared signature lines =>
    if path = declared then some ⟨signature, lines⟩ else none
  | .knownModule _ | .hideBodies _ => none

def hides (path : String) : Declaration → Bool
  | .hideBodies declared => path = declared
  | .knownModule _ | .routine .. => false

def covers (path : String) (line : UInt32) (d : Declaration) : Bool :=
  (d.entryIn path).any (·.covers line)

end Declaration

namespace CatalogModule

/-- The module that some declarations make. -/
def madeBy (path : String) (ds : List Declaration) : CatalogModule where
  entries := ds.filterMap (·.entryIn path)
  bodiesHidden := ds.any (·.hides path)

theorem madeBy_concat (path : String) (rest : List Declaration) (d : Declaration) :
    madeBy path (rest ++ [d]) =
      if path = d.path then d.amend (madeBy path rest) else madeBy path rest := by
  unfold madeBy
  rw [List.filterMap_append, List.any_append]
  cases d with
  | knownModule declared => simp [Declaration.entryIn, Declaration.hides, Declaration.amend]
  | routine declared signature lines =>
    by_cases about : path = declared <;>
      simp [Declaration.path, Declaration.entryIn, Declaration.hides, Declaration.amend, about]
  | hideBodies declared =>
    by_cases about : path = declared <;>
      simp [Declaration.path, Declaration.entryIn, Declaration.hides, Declaration.amend, about]

theorem countP_covers_madeBy (path : String) (line : UInt32) (ds : List Declaration) :
    (madeBy path ds).entries.countP (·.covers line) = ds.countP (·.covers path line) := by
  unfold madeBy
  rw [List.countP_filterMap]
  congr 1
  funext d
  unfold Declaration.covers
  cases d.entryIn path <;> rfl

end CatalogModule

theorem Signature.isWovenPair_asymm {s woven : Signature} (pair : s.isWovenPair woven) :
    ¬ woven.isWovenPair s := by
  intro turned
  simp only [isWovenPair, Bool.and_eq_true, decide_eq_true_eq] at pair turned
  have longer := congrArg List.length pair.2
  have longer' := congrArg List.length turned.2
  simp only [List.length_append, List.length_singleton] at longer longer'
  omega

namespace Catalog

theorem lookup_updateModule (path : String) (change : CatalogModule → CatalogModule)
    (modules : List (String × CatalogModule)) (other : String) :
    (updateModule path change modules).lookup other =
      if other = path then some (change ((modules.lookup other).getD {}))
      else modules.lookup other := by
  induction modules with
  | nil =>
    unfold updateModule
    rw [Memo.lookup_cons_ite]
    rfl
  | cons first rest ih =>
    obtain ⟨known, entry⟩ := first
    unfold updateModule
    by_cases here : path = known
    · subst here
      simp only [↓reduceIte, Memo.lookup_cons_ite]
      split <;> rfl
    · simp only [here, ↓reduceIte, Memo.lookup_cons_ite, ih]
      by_cases sought : other = known
      · subst sought
        simp [Ne.symm here]
      · simp [sought]

theorem module?_declare (c : Catalog) (d : Declaration) (path : String) :
    (c.declare d).module? path =
      if path = d.path then some (d.amend ((c.module? path).getD {})) else c.module? path := by
  cases d with
  | knownModule declared => exact lookup_updateModule declared _ c.modules path
  | routine declared signature lines => exact lookup_updateModule declared _ c.modules path
  | hideBodies declared => exact lookup_updateModule declared _ c.modules path

theorem module?_declareAll (ds : List Declaration) (path : String) :
    ((({} : Catalog).declareAll ds).module? path).isSome = ds.any (path = ·.path) ∧
      ((({} : Catalog).declareAll ds).module? path).getD {} = .madeBy path ds := by
  induction ds using List.reverseRecOn with
  | nil => exact ⟨rfl, rfl⟩
  | append_singleton rest d ih =>
    obtain ⟨known, made⟩ := ih
    have last : ({} : Catalog).declareAll (rest ++ [d]) =
        (({} : Catalog).declareAll rest).declare d := List.foldl_concat ..
    rw [last, module?_declare, CatalogModule.madeBy_concat, List.any_append]
    by_cases about : path = d.path
    · simp only [about, ↓reduceIte] at made ⊢
      rw [made]
      simp
    · simp [about, known, made]

/-- Two catalogs know the same of a module, up to the order of its routines. -/
inductive Rearranged : Option CatalogModule → Option CatalogModule → Prop where
  | unknown : Rearranged none none
  | known {m m' : CatalogModule} (entries : m.entries.Perm m'.entries)
      (hidden : m.bodiesHidden = m'.bodiesHidden) : Rearranged (some m) (some m')

theorem declareAll_rearranged {ds ds' : List Declaration} (same : ds.Perm ds') (path : String) :
    Rearranged ((({} : Catalog).declareAll ds).module? path)
      ((({} : Catalog).declareAll ds').module? path) := by
  obtain ⟨known, made⟩ := module?_declareAll ds path
  obtain ⟨known', made'⟩ := module?_declareAll ds' path
  rw [← same.any_eq, ← known] at known'
  have entries : (CatalogModule.madeBy path ds).entries.Perm
      (CatalogModule.madeBy path ds').entries := same.filterMap _
  have hidden : (CatalogModule.madeBy path ds).bodiesHidden =
      (CatalogModule.madeBy path ds').bodiesHidden := same.any_eq
  rw [← made, ← made'] at entries hidden
  generalize (({} : Catalog).declareAll ds).module? path = m at *
  generalize (({} : Catalog).declareAll ds').module? path = m' at *
  cases m with
  | none =>
    obtain rfl : m' = none := by simpa using known'
    exact .unknown
  | some m =>
    obtain ⟨m', rfl⟩ := Option.isSome_iff_exists.mp known'
    exact .known entries hidden

section

variable {c c' : Catalog} {site : CallSite} {candidates candidates' : List Signature}

theorem resolveByAll_perm (same : candidates.Perm candidates') :
    resolveByAll site candidates = resolveByAll site candidates' := by
  unfold resolveByAll
  rw [same.countP_eq, same.length_eq]

theorem find?_perm {α : Type} {p : α → Bool} {l l' : List α} (same : l.Perm l')
    (once : l.countP p ≤ 1) : l.find? p = l'.find? p := by
  have filtered := same.filter p
  rw [← List.head?_filter, ← List.head?_filter]
  rw [List.countP_eq_length_filter] at once
  match found : l.filter p with
  | [] =>
    rw [found] at filtered
    rw [List.nil_perm.mp filtered]
  | [only] =>
    rw [found] at filtered
    rw [List.singleton_perm.mp filtered]
  | a :: b :: rest =>
    rw [found] at once
    simp at once

theorem not_paired_of_length (several : 3 ≤ candidates.length) : ¬ paired candidates := by
  unfold paired
  split
  · simp at several
  · simp

theorem resolve_perm (same : candidates.Perm candidates')
    (known : c.candidates site.path site.routine = .ok candidates)
    (known' : c'.candidates site.path site.routine = .ok candidates')
    (many : c.resolveMany site candidates = c'.resolveMany site candidates') :
    c.resolve site = c'.resolve site := by
  match candidates with
  | [] =>
    obtain rfl := List.nil_perm.mp same
    simp only [resolve, known, known']
  | [only] =>
    obtain rfl := List.singleton_perm.mp same
    simp only [resolve, known, known']
  | [a, b] =>
    rcases List.pair_perm.mp same with rfl | rfl
    · simp only [resolve, known, known', many]
    · simp only [resolve, known, known', many]
      by_cases straight : a.isWovenPair b
      · have single := Signature.isWovenPair_asymm straight
        simp only [straight, single, Bool.false_eq_true, ↓reduceIte]
      · simp only [straight, Bool.false_eq_true, ↓reduceIte]
  | a :: b :: d :: rest =>
    have several : 3 ≤ (a :: b :: d :: rest).length := by simp
    have several' : 3 ≤ candidates'.length := several.trans_eq same.length_eq
    rw [resolve_unpaired known (Nat.le_of_succ_le several) (not_paired_of_length several),
      resolve_unpaired known' (Nat.le_of_succ_le several') (not_paired_of_length several'), many]

theorem resolve_rearranged (rearranged : Rearranged (c.module? site.path) (c'.module? site.path))
    (once : ∀ line m, site.knownLine = some line → c.module? site.path = some m →
      m.entries.countP (·.covers line) ≤ 1) : c.resolve site = c'.resolve site := by
  generalize found : c.module? site.path = held at rearranged
  generalize found' : c'.module? site.path = held' at rearranged
  cases rearranged with
  | unknown => simp only [resolve, candidates, found, found']
  | @known m m' entries hidden =>
    have named : (m.named site.routine).Perm (m'.named site.routine) :=
      (entries.map _).filter _
    apply resolve_perm named (candidates_of_module found) (candidates_of_module found')
    unfold resolveMany
    cases lined : site.knownLine with
    | none => exact resolveByAll_perm named
    | some line =>
      -- At most one body has the line, so the order does not matter for what is found first.
      have first := find?_perm entries (once line m lined found)
      have all : resolveByAll site (m.named site.routine) =
          resolveByAll site (m'.named site.routine) := resolveByAll_perm named
      cases readable : m.bodiesHidden with
      | true =>
        have unread : m'.bodiesHidden = true := hidden ▸ readable
        simpa only [resolveByLine, locate, found, found', readable, unread, ↓reduceIte] using all
      | false =>
        have readable' : m'.bodiesHidden = false := hidden ▸ readable
        simp only [resolveByLine_readable found readable, resolveByLine_readable found' readable',
          first, all]

end

end Catalog

namespace Classifier

def declared (config : ClassifierConfig) (ds : List Declaration) : Classifier :=
  { catalog := ({} : Catalog).declareAll ds, config }

theorem classify_declared (config : ClassifierConfig) (ds : List Declaration) (site : CallSite) :
    ((declared config ds).classify site).1 = ((({} : Catalog).declareAll ds).resolve site).1 ∧
      ((declared config ds).classify site).2.ambiguities =
        ((({} : Catalog).declareAll ds).resolve site).2.toList := by
  constructor
  · exact Memo.keep_answer ..
  · rfl

/-- Declarations made in another order give the same answer about a site and record the same
ambiguity, candidates and capable candidates counted, if the line of the site lies in the body of at
most one routine that was declared in its module. -/
theorem classification_ignores_declaration_order {ds ds' : List Declaration} (same : ds.Perm ds')
    (config config' : ClassifierConfig) (site : CallSite)
    (once : ∀ line, site.knownLine = some line → ds.countP (·.covers site.path line) ≤ 1) :
    let classified := (declared config ds).classify site
    let classified' := (declared config' ds').classify site
    classified.1 = classified'.1 ∧
      classified.2.ambiguities = classified'.2.ambiguities := by
  intro classified classified'
  have resolved : (({} : Catalog).declareAll ds).resolve site =
      (({} : Catalog).declareAll ds').resolve site := by
    apply Catalog.resolve_rearranged (Catalog.declareAll_rearranged same site.path)
    intro line m lined found
    obtain ⟨-, made⟩ := Catalog.module?_declareAll ds site.path
    rw [found, Option.getD_some] at made
    rw [made, CatalogModule.countP_covers_madeBy]
    exact once line lined
  obtain ⟨answer, recorded⟩ := classify_declared config ds site
  obtain ⟨answer', recorded'⟩ := classify_declared config' ds' site
  constructor
  · exact answer.trans ((congrArg Prod.fst resolved).trans answer'.symm)
  · exact recorded.trans ((congrArg (·.2.toList) resolved).trans recorded'.symm)

theorem reversed_declarations_answer_alike :
    let ds := .hideBodies "frame" :: readOverloads ++ [.knownModule "codec"]
    let reversed := declared {} ds.reverse
    let unlined := { plainReadSite with line := none }
    (∀ line, plainReadSite.knownLine = some line →
        ds.countP (·.covers plainReadSite.path line) ≤ 1) ∧
      (reversed.classify plainReadSite).1 = .notCapable ∧
      (reversed.classify unlined).2.ambiguities = [⟨unlined, 2, 1⟩] := by
  intro ds reversed unlined
  have once : ∀ line, plainReadSite.knownLine = some line →
      ds.countP (·.covers plainReadSite.path line) ≤ 1 := by
    intro line lined
    cases lined
    decide
  have vacant : ∀ line, unlined.knownLine = some line →
      ds.countP (·.covers unlined.path line) ≤ 1 := by
    intro line lined
    cases lined
  have same := ds.reverse_perm.symm
  obtain ⟨answer, -⟩ := classification_ignores_declaration_order same {} {} plainReadSite once
  obtain ⟨-, recorded⟩ := classification_ignores_declaration_order same {} {} unlined vacant
  refine ⟨once, ?_, ?_⟩
  · rw [← answer]
    decide
  · rw [← recorded]
    decide

end Classifier

end ResumableTasks
