import HtmlViews.Engine.Loading
import HtmlViews.Proofs.Dict

/-!
# What loading does

Loading goes through the files that a glob describes one by one. Whatever can be read comes into the
place of the templates that have a file, and whatever cannot is reported; so the outcome is said by
the templates in these files.

Loading keeps an engine and a text about problems while it goes through the files, one after the
other. What it has done to the engine is the same as putting in a list of entries
(**Engine.foldl_addMatch**), by induction on the files, and what it has written is empty exactly if
no file made a problem, since what is written about a file is never empty. With this, look-up in the
loaded engine is look-up in a dictionary into which several entries were put, and the files play no
part any more.

Nothing is used here of how the files of a glob are found, or in which order.

* **Glob.Match.template?** — the template in a file that a glob describes.
* **Engine.found** — the files that the glob of an engine describes.
* **Engine.loaded** — an engine with the templates in some files in the place of those with a file.
* **Engine.foldl_addMatch** — going through files loads what can be read.
* **Engine.new_eq_ok**, **Engine.reload_cases** — what comes of a new engine and of a reload.
-/

namespace HtmlViews

namespace Glob.Match

/-- The name of the template in a file that a glob describes. -/
def name (m : Glob.Match) : String :=
  String.ofList (templateName m.below)

/-- The template in a file that a glob describes, if the file can be read. -/
def template? (files : Files) (m : Glob.Match) : Option Template :=
  match files.contentAt m.path with
  | .ok source => some { name := m.name, path := some (String.ofList m.path), source }
  | .error _ => none

variable {files : Files} {m : Glob.Match} {t : Template}

/-- The template in a file has its text as source, and its path. -/
theorem template?_eq_some_iff : m.template? files = some t ↔
    ∃ source, files.contentAt m.path = .ok source ∧
      t = { name := m.name, path := some (String.ofList m.path), source } := by
  unfold template?
  cases files.contentAt m.path with
  | error kind => simp
  | ok source => simp [eq_comm]

/-- The template in a file has a path. -/
theorem path_of_template? (h : m.template? files = some t) : t.path ≠ none := by
  obtain ⟨source, -, rfl⟩ := template?_eq_some_iff.mp h
  exact Option.some_ne_none _

end Glob.Match

namespace Engine

/-- The files that the glob of an engine describes. -/
def found (e : Engine) (files : Files) : Except Pattern.Fault (List Glob.Match) :=
  match e.glob.bind Glob.ofText? with
  | some glob => glob.find files
  | none => .ok []

/-- The templates in those of some files that can be read, under their names. -/
def entries (files : Files) (found : List Glob.Match) : List (String × Template) :=
  found.filterMap fun m => (m.template? files).map fun t => (m.name, t)

/-- The engine with the templates in some files, in the place of those that have a file. -/
def loaded (e : Engine) (files : Files) (found : List Glob.Match) : Engine :=
  { e with templates := e.dropFiles.templates.insertAll (entries files found) }

variable {e : Engine} {files : Files} {m : Glob.Match} {t : Template} {found : List Glob.Match}
  {problems : String}

/-- The entries are the templates in the files that can be read, under the names of these. -/
theorem mem_entries_iff {n : String} :
    (n, t) ∈ entries files found ↔ ∃ m ∈ found, m.name = n ∧ m.template? files = some t := by
  unfold entries
  rw [List.mem_filterMap]
  constructor
  · rintro ⟨m, hm, h⟩
    obtain ⟨t', ht', heq⟩ := Option.map_eq_some_iff.mp h
    cases heq
    exact ⟨m, hm, rfl, ht'⟩
  · rintro ⟨m, hm, rfl, ht⟩
    exact ⟨m, hm, by rw [ht]; rfl⟩

/-! ## Going through files -/

/-- There are lines about every file that cannot be read. -/
theorem problem_ne_empty (f : Failure) : problem f ≠ "" := by
  have hfold : ∀ (sources : List String) (text : String), text ≠ "" →
      sources.foldl (fun text source => text ++ "\n" ++ source) text ≠ "" := by
    intro sources
    induction sources with
    | nil =>
      intro text htext
      exact htext
    | cons source sources ih =>
      intro text htext
      apply ih
      simp [htext]
  apply hfold
  simp

/-- A file that can be read is added. -/
theorem addMatch_of_some (h : m.template? files = some t) :
    addMatch files (e, problems) m =
      ({ e with templates := e.templates.insert m.name t }, problems) := by
  obtain ⟨source, hsource, rfl⟩ := Glob.Match.template?_eq_some_iff.mp h
  unfold addMatch addFile Files.read
  rw [hsource]
  rfl

/-- A file that cannot be read changes nothing and is reported. -/
theorem addMatch_of_none (e : Engine) (problems : String) (h : m.template? files = none) :
    ∃ f, addMatch files (e, problems) m = (e, problems ++ problem f) := by
  unfold Glob.Match.template? at h
  cases hcontent : files.contentAt m.path with
  | ok source =>
    rw [hcontent] at h
    cases h
  | error kind =>
    refine ⟨.io (String.ofList m.path) kind kind.report, ?_⟩
    unfold addMatch addFile Files.read
    rw [hcontent]
    rfl

/-- Going through files puts in what can be read, and there are no lines about problems exactly if
all of it can. -/
theorem foldl_addMatch (files : Files) (found : List Glob.Match) (e : Engine) (problems : String) :
    (found.foldl (addMatch files) (e, problems)).1 =
        { e with templates := e.templates.insertAll (entries files found) } ∧
      ((found.foldl (addMatch files) (e, problems)).2 = "" ↔
        problems = "" ∧ ∀ m ∈ found, m.template? files ≠ none) := by
  induction found generalizing e problems with
  | nil => exact ⟨rfl, by simp⟩
  | cons m found ih =>
    rw [List.foldl_cons]
    cases h : m.template? files with
    | some t =>
      have hentries : entries files (m :: found) = (m.name, t) :: entries files found :=
        List.filterMap_cons_some (by rw [h]; rfl)
      rw [addMatch_of_some h, hentries]
      obtain ⟨hengine, hproblems⟩ := ih { e with templates := e.templates.insert m.name t } problems
      refine ⟨hengine, hproblems.trans ?_⟩
      simp [h]
    | none =>
      have hentries : entries files (m :: found) = entries files found :=
        List.filterMap_cons_none (by rw [h]; rfl)
      obtain ⟨f, hf⟩ := addMatch_of_none e problems h
      rw [hf, hentries]
      obtain ⟨hengine, hproblems⟩ := ih e (problems ++ problem f)
      refine ⟨hengine, hproblems.trans ?_⟩
      simp [h, problem_ne_empty]

/-! ## Outcomes -/

section Outcomes

variable {text : Text} {glob : Glob}

/-- Loading files puts in those that can be read, and succeeds if all of them can. -/
theorem load_of_found (htext : Glob.ofText? text = some glob)
    (hfound : glob.find files = .ok found) :
    (e.load files text).value.2 = e.loaded files found ∧
      ((e.load files text).value.1 = .ok () ↔ ∀ m ∈ found, m.template? files ≠ none) := by
  obtain ⟨hengine, hproblems⟩ := foldl_addMatch files found e.dropFiles ""
  unfold load
  simp only [htext, hfound]
  generalize found.foldl (addMatch files) (e.dropFiles, "") = state at hengine hproblems ⊢
  obtain ⟨e', problems⟩ := state
  obtain rfl : e' = e.loaded files found := hengine
  by_cases h : problems = ""
  · simp only [if_pos h]
    exact ⟨rfl, fun _ => (hproblems.mp h).2, fun _ => rfl⟩
  · simp only [if_neg h]
    refine ⟨rfl, fun hok => ?_, fun hall => ?_⟩
    · cases hok
    · exact absurd (hproblems.mpr ⟨rfl, hall⟩) h

/-- A glob that spells no pattern is reported, when the templates with a file are gone already. -/
theorem load_of_fault {fault : Pattern.Fault} (htext : Glob.ofText? text = some glob)
    (hfault : glob.find files = .error fault) :
    (e.load files text).value =
      (.error (invalidGlob text fault (glob.search files).pattern), e.dropFiles) := by
  unfold load
  simp only [htext, hfault]
  rfl

/-- A new engine has the templates in the files that its glob describes, all of which can be
read. -/
theorem new_eq_ok (h : (Engine.new files text).value = .ok e) :
    ∃ glob found, Glob.ofText? text = some glob ∧ glob.find files = .ok found ∧
      (∀ m ∈ found, m.template? files ≠ none) ∧
      e = ({ empty with glob := some text } : Engine).loaded files found := by
  have hload : (({ empty with glob := some text } : Engine).load files text).value =
      (.ok (), e) := by
    unfold Engine.new at h
    generalize ({ empty with glob := some text } : Engine).load files text = loading at h ⊢
    obtain ⟨⟨result, e'⟩, log⟩ := loading
    cases result with
    | error f => cases h
    | ok u =>
      cases h
      rfl
  cases htext : Glob.ofText? text with
  | none =>
    unfold load at hload
    rw [htext] at hload
    cases hload
  | some glob =>
    cases hfound : glob.find files with
    | error fault =>
      rw [load_of_fault htext hfound] at hload
      cases hload
    | ok found =>
      obtain ⟨hengine, hok⟩ := load_of_found (e := { empty with glob := some text }) htext hfound
      rw [hload] at hengine hok
      exact ⟨glob, found, rfl, hfound, hok.mp rfl, hengine⟩

/-- What comes of a reload, for an engine whose glob describes files if it has one: it is refused
without a glob; if the glob spells no pattern, the templates with a file are gone; otherwise the
files that can be read are in their place, and it succeeds if all of them can. -/
theorem reload_cases (he : e.glob = none ∨ ∃ glob, e.glob.bind Glob.ofText? = some glob)
    (files : Files) :
    (e.glob = none ∧ (e.reload files).value = (.error noGlob, e)) ∨
    (∃ fault f, e.found files = .error fault ∧ (e.reload files).value = (.error f, e.dropFiles)) ∨
    ∃ found, e.glob ≠ none ∧ e.found files = .ok found ∧
      (e.reload files).value.2 = e.loaded files found ∧
      ((e.reload files).value.1 = .ok () ↔ ∀ m ∈ found, m.template? files ≠ none) := by
  rcases he with hnone | ⟨glob, hglob⟩
  · refine .inl ⟨hnone, ?_⟩
    unfold reload
    rw [hnone]
    rfl
  · obtain ⟨text, hsome, htext⟩ := Option.bind_eq_some_iff.mp hglob
    have hfind : e.found files = glob.find files := by
      unfold Engine.found
      rw [hglob]
    have hreload : e.reload files = e.load files text := by
      unfold reload
      rw [hsome]
    rw [hfind, hreload]
    cases hfound : glob.find files with
    | error fault => exact .inr (.inl ⟨fault, _, rfl, load_of_fault htext hfound⟩)
    | ok found =>
      exact .inr (.inr ⟨found, by rw [hsome]; exact Option.some_ne_none _, rfl,
        load_of_found htext hfound⟩)

end Outcomes

end Engine

end HtmlViews
