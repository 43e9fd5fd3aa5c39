import ResumableTasks.Proofs.DenotedSetting
/-!
Where the settings come from. In each field the variable of the field stands over the file and the
file over the base; the variables are read in turn, and the first one whose text stands for nothing
ends the reading.
-/
namespace ResumableTasks

namespace Variable

variable {env : Environment} {v : Variable} {vars : List Variable} {s t : Settings}

/-- What a field comes to when its variable stands over it. -/
def Layered (env : Environment) (v : Variable) (under result : Setting) : Prop :=
  match v.value? env with
  | none => result = under
  | some value => ∃ x, v.Denotes value x ∧ result = under.put x

def Readable (env : Environment) (v : Variable) : Prop :=
  ∀ value, v.value? env = some value → ∃ x, v.Denotes value x

theorem Layered.eq_of_unset {under result : Setting} (layered : v.Layered env under result)
    (unset : v.value? env = none) : result = under := by
  simpa only [Layered, unset] using layered

theorem Layered.eq_of_denotes {under result x : Setting} {value : String}
    (layered : v.Layered env under result) (given : v.value? env = some value)
    (denoted : v.Denotes value x) : result = under.put x := by
  simp only [Layered, given] at layered
  obtain ⟨y, again, rfl⟩ := layered
  rw [again.unique denoted]

structure Overridden (env : Environment) (vars : List Variable) (s t : Settings) : Prop where
  layered : ∀ v ∈ vars, v.Layered env (s.field v) (t.field v)
  kept : ∀ v ∉ vars, t.field v = s.field v

theorem mem_all (v : Variable) : v ∈ all := by cases v <;> decide

theorem all_nodup : all.Nodup := by decide

theorem applyAll_cons_of_readable (readable : v.Readable env) (s : Settings) :
    ∃ t, (∀ rest, applyAll env (v :: rest) s = applyAll env rest t) ∧
      v.Layered env (s.field v) (t.field v) ∧ ∀ u, u ≠ v → t.field u = s.field u := by
  cases given : v.value? env with
  | none =>
    refine ⟨s, fun rest => by simp only [applyAll, given], ?_, fun _ _ => rfl⟩
    rw [Layered, given]
  | some value =>
    obtain ⟨x, denoted⟩ := readable value given
    obtain ⟨t, applied, changed⟩ := apply_of_denotes denoted s
    refine ⟨t, fun rest => by simp only [applyAll, given, applied], ?_, ?_⟩
    · rw [Layered, given]
      exact ⟨x, denoted, by rw [changed v, if_pos rfl]⟩
    · intro u other
      rw [changed u, if_neg other]

theorem applyAll_of_readable (distinct : vars.Nodup) (readable : ∀ v ∈ vars, v.Readable env)
    (s : Settings) :
    ∃ t, (∀ rest, applyAll env (vars ++ rest) s = applyAll env rest t) ∧
      Overridden env vars s t := by
  induction vars generalizing s with
  | nil => exact ⟨s, fun _ => rfl, ⟨fun _ among => absurd among List.not_mem_nil, fun _ _ => rfl⟩⟩
  | cons v vars ih =>
    obtain ⟨fresh, distinct⟩ := List.nodup_cons.mp distinct
    obtain ⟨first, later⟩ := List.forall_mem_cons.mp readable
    obtain ⟨mid, ahead, set, others⟩ := applyAll_cons_of_readable first s
    obtain ⟨t, behind, overridden⟩ := ih distinct later mid
    refine ⟨t, fun rest => (ahead (vars ++ rest)).trans (behind rest), ⟨?_, ?_⟩⟩
    · refine List.forall_mem_cons.mpr ⟨?_, fun u among => ?_⟩
      · rw [overridden.kept v fresh]
        exact set
      · have other : u ≠ v := fun same => fresh (same ▸ among)
        rw [← others u other]
        exact overridden.layered u among
    · intro u outside
      rw [List.mem_cons, not_or] at outside
      rw [overridden.kept u outside.2, others u outside.1]

/-- The first variable in a list whose text stands for nothing. -/
structure FirstUnreadable (env : Environment) (vars earlier : List Variable) (v : Variable)
    (value : String) : Prop where
  place : ∃ later, vars = earlier ++ v :: later
  before : ∀ u ∈ earlier, u.Readable env
  given : v.value? env = some value
  undenoted : ∀ x, ¬ v.Denotes value x

theorem exists_firstUnreadable (unreadable : ¬ ∀ v ∈ vars, v.Readable env) :
    ∃ earlier v value, FirstUnreadable env vars earlier v value := by
  induction vars with
  | nil => exact absurd (fun _ among => absurd among List.not_mem_nil) unreadable
  | cons v vars ih =>
    by_cases first : v.Readable env
    · have later : ¬ ∀ v ∈ vars, v.Readable env :=
        fun all => unreadable (List.forall_mem_cons.mpr ⟨first, all⟩)
      obtain ⟨earlier, u, value, found⟩ := ih later
      obtain ⟨rest, place⟩ := found.place
      exact ⟨v :: earlier, u, value, ⟨rest, by rw [place]; rfl⟩,
        List.forall_mem_cons.mpr ⟨first, found.before⟩, found.given, found.undenoted⟩
    · simp only [Readable, not_forall, not_exists] at first
      obtain ⟨value, given, undenoted⟩ := first
      exact ⟨[], v, value, ⟨vars, rfl⟩, by simp, given, undenoted⟩

theorem applyAll_of_unreadable {earlier : List Variable} {value : String} (distinct : vars.Nodup)
    (first : FirstUnreadable env vars earlier v value) (s : Settings) :
    ∃ t, applyAll env vars s = (.error (.invalidValue v.name v.expected value), t) ∧
      Overridden env earlier s t := by
  obtain ⟨later, rfl⟩ := first.place
  have distinct := (List.nodup_append.mp distinct).1
  obtain ⟨t, ahead, overridden⟩ := applyAll_of_readable distinct first.before s
  refine ⟨t, ?_, overridden⟩
  rw [ahead (v :: later), applyAll]
  simp only [first.given, apply_of_undenoted first.undenoted]

end Variable

namespace Settings

open Variable

variable {base : Settings} {files : FileSystem} {path text : String} {f : FileSettings}

theorem ofFile_of_loaded (loaded : files.read path = .ok text)
    (parsed : FileSettings.parse text = .ok f) (env : Environment) :
    base.ofFile files path env = (base.withFile f).ofEnvironment env := by
  rw [ofFile, loaded]
  simp only [parsed]
  rfl

/-- The settings from a file and the environment. If every variable that is set can be read, each
field is layered and the whole is brought into normal form; otherwise the first one that cannot be
read is reported, and exactly those before it have been put over their fields. -/
theorem file_and_environment_are_layered (base : Settings) (env : Environment)
    (loaded : files.read path = .ok text) (parsed : FileSettings.parse text = .ok f) :
    ((∀ v : Variable, v.Readable env) → ∃ chosen : Settings,
      (∀ v : Variable, v.Layered env ((f.field? v).getD (base.field v)) (chosen.field v)) ∧
      (base.withFile f).override env = (.ok (), chosen) ∧
      base.ofFile files path env = .ok chosen.normalize) ∧
    ((¬ ∀ v : Variable, v.Readable env) → ∃ earlier v value,
      FirstUnreadable env all earlier v value ∧
      base.ofFile files path env = .error (.invalidValue v.name v.expected value) ∧
      ∀ s : Settings, ∃ left,
        s.override env = (.error (.invalidValue v.name v.expected value), left) ∧
        Overridden env earlier s left) := by
  rw [ofFile_of_loaded loaded parsed]
  constructor
  · intro readable
    obtain ⟨chosen, ran, overridden⟩ :=
      applyAll_of_readable all_nodup (fun v _ => readable v) (base.withFile f)
    have succeeded : (base.withFile f).override env = (.ok (), chosen) := ran []
    refine ⟨chosen, fun v => ?_, succeeded, ?_⟩
    · rw [← field_withFile]
      exact overridden.layered v (mem_all v)
    · rw [ofEnvironment, succeeded]
  · intro unreadable
    have among : ¬ ∀ v ∈ all, v.Readable env := fun every => unreadable fun v => every v (mem_all v)
    obtain ⟨earlier, v, value, first⟩ := exists_firstUnreadable among
    refine ⟨earlier, v, value, first, ?_, applyAll_of_unreadable all_nodup first⟩
    obtain ⟨left, stopped, -⟩ := applyAll_of_unreadable all_nodup first (base.withFile f)
    rw [ofEnvironment, override, stopped]

end Settings

namespace SparseFile

def text : String :=
  "[scheduler]\nidle_timeout_ms = 50\n[classifier]\nnot_counted_prefixes = [\"app::\"]\n"

def files : FileSystem := { root := .directory [("weft.toml", .file text)] }

def given : FileSettings := { idleTimeout := some 50, notCounted := some ["app::"] }

def environment : Environment := fun name =>
  if name = "WEFT_IDLE_TIMEOUT_MS" then some " Off ".toUTF8
  else if name = "WEFT_NOT_COUNTED_PREFIXES" then some "a, ,b".toUTF8
  else none

def refused : Environment := fun name =>
  if name = "WEFT_IDLE_BACKOFF_MS" then some " soon".toUTF8 else none

theorem environment_unset {v : Variable} (other : v ≠ .idleTimeout) (different : v ≠ .notCounted) :
    v.value? environment = none := by
  cases v with
  | idleTimeout => exact absurd rfl other
  | notCounted => exact absurd rfl different
  | _ => rfl

theorem refused_unset {v : Variable} (other : v ≠ .idleBackoff) : v.value? refused = none := by
  cases v with
  | idleBackoff => exact absurd rfl other
  | _ => rfl

theorem off_denoted : Variable.idleTimeout.Denotes " Off " (.span none) := by
  have padded : Text.Padded "Off".toList " Off ".toList := Text.trim_eq_iff.mp rfl
  exact .noSpan padded (by decide)

theorem items_denoted : Variable.notCounted.Denotes "a, ,b" (.texts ["a", "b"]) := by
  have whole : [','].intercalate ["a".toList, " ".toList, "b".toList] = "a, ,b".toList := rfl
  have padded : List.Forall₂ Text.Padded ["a".toList, [], "b".toList]
      ["a".toList, " ".toList, "b".toList] :=
    .cons (Text.trim_eq_iff.mp rfl) (.cons (Text.trim_eq_iff.mp rfl)
      (.cons (Text.trim_eq_iff.mp rfl) .nil))
  exact .list (List.cons_ne_nil _ _) whole (by decide) padded

theorem soon_undenoted (x : Setting) : ¬ Variable.idleBackoff.Denotes " soon" x := by
  intro denoted
  cases denoted with
  | count counts padded numeral =>
    rw [← Text.trim_of_padded padded, ← Text.readDecimal?_eq_some_iff] at numeral
    cases numeral
  | text named => exact absurd named (by decide)

end SparseFile

open SparseFile in
theorem sparse_file_is_layered :
    files.read "/weft.toml" = .ok text ∧ FileSettings.parse text = .ok given ∧
    (∃ chosen : Settings,
      (Settings.standard 3).ofFile files "/weft.toml" environment = .ok chosen.normalize ∧
      chosen.field .workerThreads = .count 3 ∧ chosen.field .idleTimeout = .span none ∧
      chosen.field .notCounted = .texts ["app::", "a", "b"]) ∧
    (Settings.standard 3).ofFile files "/weft.toml" refused =
      .error (.invalidValue "WEFT_IDLE_BACKOFF_MS" "milliseconds as u64" " soon") := by
  have loaded : files.read "/weft.toml" = .ok text := by rfl
  have parsed : FileSettings.parse text = .ok given := by rfl
  have off : Variable.value? .idleTimeout environment = some " Off " := rfl
  have items : Variable.value? .notCounted environment = some "a, ,b" := rfl
  have soon : Variable.value? .idleBackoff refused = some " soon" := rfl
  refine ⟨loaded, parsed, ?_, ?_⟩
  · have readable : ∀ v : Variable, v.Readable environment := by
      intro v value set
      by_cases timeout : v = .idleTimeout
      · subst timeout
        cases off.symm.trans set
        exact ⟨_, off_denoted⟩
      by_cases paths : v = .notCounted
      · subst paths
        cases items.symm.trans set
        exact ⟨_, items_denoted⟩
      · cases (environment_unset timeout paths).symm.trans set
    obtain ⟨chosen, layered, -, read⟩ :=
      (Settings.file_and_environment_are_layered (Settings.standard 3) environment loaded
        parsed).1 readable
    have workers : Variable.value? .workerThreads environment = none := rfl
    exact ⟨chosen, read, (layered .workerThreads).eq_of_unset workers,
      (layered .idleTimeout).eq_of_denotes off off_denoted,
      (layered .notCounted).eq_of_denotes items items_denoted⟩
  · have unreadable : ¬ ∀ v : Variable, v.Readable refused := by
      intro readable
      obtain ⟨x, denoted⟩ := readable _ _ soon
      exact soon_undenoted x denoted
    obtain ⟨earlier, v, value, first, read, -⟩ :=
      (Settings.file_and_environment_are_layered (Settings.standard 3) refused loaded
        parsed).2 unreadable
    have found : v = .idleBackoff := by
      by_contra other
      cases (refused_unset other).symm.trans first.given
    subst found
    cases soon.symm.trans first.given
    exact read

end ResumableTasks
