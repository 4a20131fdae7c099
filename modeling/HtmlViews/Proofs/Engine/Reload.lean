import HtmlViews.Proofs.Engine.Reachable
import Mathlib

/-!
# Reloads

A reload reads the files that the glob of an engine describes as they are now. What it leaves is
said by these files and the templates without a file alone, unless both have a name in common.

Two engines are compared by what look-up finds in them (**Engine.templates_ext**), and look-up after
loading has two cases: under the name of a file that can be read there is the template in such a
file, and under any other name there is what stayed when the templates with a file were dropped. If
the files have different names, and none of them that of a template without a file, these two cases
say everything (**Engine.Loadable.template?_loaded_eq_some_iff**), and they speak neither of the
order of the files nor of what was loaded before. From this follow all parts of
**Engine.reload_rebuilds**.

If a file has the name of a template that was added as a text, it takes its place; that is the one
case in which such a template does not stay.

* **Engine.Loadable** — files that can all be read, each under a name of its own.
* **Engine.reload_rebuilds** — a reload brings these files, whatever was loaded before.
* **Engine.reload_keeps_iff** — a template that was added as a text stays unless a file has its
  name.
* **Engine.reload_failed** — what a failed reload leaves.

A glob with a relative path describes other files when the folder is there than when it is not, and
may spell no pattern at all then; so the files that it describes are those of the moment.
-/

namespace HtmlViews.Engine

variable {e : Engine} {files : Files} {found : List Glob.Match} {n : String} {t : Template}

/-! ## Looking up what was loaded -/

/-- Under the name of files that can be read, the template in one of them is there. -/
theorem exists_template?_loaded (e : Engine) {m : Glob.Match} (hm : m ∈ found)
    (ht : m.template? files = some t) :
    ∃ m' ∈ found, m'.name = m.name ∧ ∃ t', m'.template? files = some t' ∧
      (e.loaded files found).template? m.name = some t' := by
  have hmem : (m.name, t) ∈ entries files found := mem_entries_iff.mpr ⟨m, hm, rfl, ht⟩
  obtain ⟨t', hmem', hfind⟩ := Dict.exists_find?_insertAll (d := e.dropFiles.templates) hmem
  obtain ⟨m', hm', hname, ht'⟩ := mem_entries_iff.mp hmem'
  exact ⟨m', hm', hname, t', ht', hfind⟩

/-- The templates that stay when those with a file are dropped. -/
theorem template?_dropFiles (e : Engine) (n : String) :
    e.dropFiles.template? n = (e.template? n).filter (·.path.isNone) :=
  Dict.find?_filter e.templates _ n

/-- Under a name that no file has, what stays is there. -/
theorem template?_loaded (e : Engine)
    (hn : ∀ m ∈ found, m.name = n → m.template? files = none) :
    (e.loaded files found).template? n = (e.template? n).filter (·.path.isNone) := by
  rw [← template?_dropFiles]
  apply Dict.find?_insertAll_of_not_mem
  intro t ht
  obtain ⟨m, hm, hname, htemplate⟩ := mem_entries_iff.mp ht
  rw [hn m hm hname] at htemplate
  cases htemplate

/-- Engines have the same templates if look-up finds the same in them. -/
theorem templates_ext {e e' : Engine}
    (hfind : ∀ n t, e.template? n = some t ↔ e'.template? n = some t) :
    e.templates = e'.templates :=
  Dict.ext fun n => Option.ext fun t => hfind n t

/-! ## Files that can all be loaded -/

/-- Whether files can all be read, and their names are those of nothing else: of none other of them
and of no template that was added as a text. -/
structure Loadable (e : Engine) (files : Files) (found : List Glob.Match) : Prop where
  /-- Each of them can be read. -/
  readable : ∀ m ∈ found, ∃ source, files.contentAt m.path = .ok source
  /-- No two of them have the same name. -/
  distinct : (found.map Glob.Match.name).Nodup
  /-- None of them has the name of a template without a file. -/
  apart : ∀ m ∈ found, ∀ t, e.template? m.name = some t → t.path ≠ none

namespace Loadable

/-- In each of the files there is a template. -/
theorem template?_ne_none (h : Loadable e files found) :
    ∀ m ∈ found, m.template? files ≠ none := by
  intro m hm hnone
  obtain ⟨source, hsource⟩ := h.readable m hm
  have ht := Glob.Match.template?_eq_some_iff.mpr ⟨source, hsource, rfl⟩
  rw [hnone] at ht
  cases ht

/-- After loading, exactly the templates without a file and those in the files are there. -/
theorem template?_loaded_eq_some_iff (h : Loadable e files found) :
    (e.loaded files found).template? n = some t ↔
      (e.template? n = some t ∧ t.path = none) ∨
        ∃ m ∈ found, m.name = n ∧ m.template? files = some t := by
  by_cases hn : ∃ m ∈ found, m.name = n
  · obtain ⟨m, hm, rfl⟩ := hn
    obtain ⟨source, hsource⟩ := h.readable m hm
    obtain ⟨m', hm', hname, t', ht', hfind⟩ := exists_template?_loaded e hm
      (Glob.Match.template?_eq_some_iff.mpr ⟨source, hsource, rfl⟩)
    obtain rfl : m' = m := List.inj_on_of_nodup_map h.distinct hm' hm hname
    rw [hfind]
    constructor
    · rintro ⟨⟩
      exact .inr ⟨m', hm, rfl, ht'⟩
    · rintro (⟨hkept, hpath⟩ | ⟨m, hm, hname, ht⟩)
      · exact absurd hpath (h.apart m' hm' t hkept)
      · obtain rfl : m = m' := List.inj_on_of_nodup_map h.distinct hm hm' hname
        rw [← ht', ht]
  · rw [template?_loaded e fun m hm hname => absurd ⟨m, hm, hname⟩ hn, Option.filter_eq_some_iff,
      Option.isNone_iff_eq_none]
    refine ⟨.inl, ?_⟩
    rintro (hkept | ⟨m, hm, hname, -⟩)
    · exact hkept
    · exact absurd ⟨m, hm, hname⟩ hn

/-- Files that can be loaded can be loaded in any order. -/
theorem perm (h : Loadable e files found) {walk : List Glob.Match} (hwalk : walk.Perm found) :
    Loadable e files walk where
  readable m hm := h.readable m (hwalk.mem_iff.mp hm)
  distinct := (hwalk.map _).nodup_iff.mpr h.distinct
  apart m hm := h.apart m (hwalk.mem_iff.mp hm)

/-- The order in which files are gone through makes no difference. -/
theorem loaded_perm (h : Loadable e files found) {walk : List Glob.Match}
    (hwalk : walk.Perm found) : e.loaded files walk = e.loaded files found := by
  have htemplates : (e.loaded files walk).templates = (e.loaded files found).templates := by
    apply templates_ext
    intro n t
    rw [(h.perm hwalk).template?_loaded_eq_some_iff, h.template?_loaded_eq_some_iff]
    simp only [hwalk.mem_iff]
  exact congrArg (fun templates => { e with templates }) htemplates

/-- The templates that have a file make no difference to what is there after loading. -/
theorem templates_loaded (h : Loadable e files found) {e' : Engine}
    (hkept : ∀ n t, t.path = none → (e'.template? n = some t ↔ e.template? n = some t)) :
    Loadable e' files found ∧
      (e'.loaded files found).templates = (e.loaded files found).templates := by
  have h' : Loadable e' files found :=
    { readable := h.readable
      distinct := h.distinct
      apart := fun m hm t ht hpath => h.apart m hm t ((hkept _ t hpath).mp ht) hpath }
  refine ⟨h', templates_ext ?_⟩
  intro n t
  rw [h'.template?_loaded_eq_some_iff, h.template?_loaded_eq_some_iff]
  refine or_congr ⟨?_, ?_⟩ Iff.rfl
  · rintro ⟨ht, hpath⟩
    exact ⟨(hkept n t hpath).mp ht, hpath⟩
  · rintro ⟨ht, hpath⟩
    exact ⟨(hkept n t hpath).mpr ht, hpath⟩

end Loadable

/-- A reload of files that can all be loaded succeeds. -/
theorem Reachable.reload_of_loadable (he : e.Reachable) {text : Text} (hglob : e.glob = some text)
    (hfound : e.found files = .ok found) (h : Loadable e files found) :
    (e.reload files).value = (.ok (), e.loaded files found) := by
  rcases reload_cases he.glob files with ⟨hnone, -⟩ | ⟨fault, f, hfault, -⟩ |
    ⟨found', -, hfound', hengine, hok⟩
  · rw [hglob] at hnone
    cases hnone
  · rw [hfound] at hfault
    cases hfault
  · rw [hfound] at hfound'
    cases hfound'
    exact Prod.ext (hok.mpr h.template?_ne_none) hengine

/-! ## A page

The runs below are those of an engine with a page, `v/a.html` in the working directory `/w`, and a
template that was added as a text. -/

/-- Files of which one is a page, with some content. -/
def pageFile (content : ByteArray) : Files :=
  (Files.new ["w".toList]).write "v/a.html".toList content

/-- The glob of pages. -/
def pages : Text :=
  "v/*.html".toList

/-- The engine with the page alone. -/
def pageEngine : Engine :=
  { glob := some pages
    templates := .ofList [("a", { name := "a", path := some "/w/v/a.html", source := "a" })] }

/-- A template that is added as a text. -/
def note : Template :=
  { name := "note", path := none, source := "text" }

/-- The engine with the page and the template. -/
def noteEngine : Engine :=
  pageEngine.add "note" "text"

/-- The glob of pages describes the page, whatever its content is. -/
theorem found_noteEngine (content : ByteArray) : noteEngine.found (pageFile content) =
    .ok [⟨"/w/v/a.html".toList, "a.html".toList⟩] := by
  cbv

/-- The engine with the page is made from the glob of pages. -/
theorem new_pageFile : (Engine.new (pageFile "a".toUTF8) pages).value = .ok pageEngine := by
  obtain ⟨glob, hglob⟩ : ∃ glob, Glob.ofText? pages = some glob :=
    Option.isSome_iff_exists.mp rfl
  have hfound : glob.find (pageFile "a".toUTF8) =
      .ok [⟨"/w/v/a.html".toList, "a.html".toList⟩] := by
    rw [← found_noteEngine "a".toUTF8, found, show noteEngine.glob = some pages from rfl,
      Option.bind_some, hglob]
  obtain ⟨hengine, hok⟩ := load_of_found (e := { empty with glob := some pages }) hglob hfound
  have hread := hok.mpr <|
    List.forall_mem_singleton.mpr (Option.isSome_iff_ne_none.mp (by cbv))
  have hloaded : ({ empty with glob := some pages } : Engine).loaded (pageFile "a".toUTF8)
      [⟨"/w/v/a.html".toList, "a.html".toList⟩] = pageEngine := by
    cbv
  unfold Engine.new
  simp only [Logged.value_bind, hread, hengine, hloaded]
  rfl

/-- It can come about. -/
theorem reachable_pageEngine : pageEngine.Reachable :=
  .new new_pageFile

/-- With the template it can come about, too. -/
theorem reachable_noteEngine : noteEngine.Reachable :=
  reachable_pageEngine.change (.add "note" "text")

/-! ## Main results -/

/-- **A reload rebuilds the templates from the files**, for an engine that can come about and files
that can all be read, each under a name of its own. It succeeds, and there are exactly the templates
that were added as texts, as they were, and one with its present text for each file. What else was
loaded before makes no difference, and neither does the order in which the files are gone through;
and another reload of the same files changes nothing. -/
theorem reload_rebuilds {text : Text} (he : e.Reachable) (hglob : e.glob = some text)
    (hfound : e.found files = .ok found) (h : Loadable e files found) :
    (e.reload files).value.1 = .ok () ∧
    (∀ n t, (e.reload files).value.2.template? n = some t ↔
      (e.template? n = some t ∧ t.path = none) ∨
        ∃ m ∈ found, m.name = n ∧ ∃ source, files.contentAt m.path = .ok source ∧
          t = { name := n, path := some (String.ofList m.path), source }) ∧
    (∀ e' : Engine, e'.Reachable → e'.glob = some text →
      (∀ n t, t.path = none → (e'.template? n = some t ↔ e.template? n = some t)) →
        (e'.reload files).value =
          (.ok (), { e' with templates := (e.reload files).value.2.templates })) ∧
    (∀ walk : List Glob.Match, walk.Perm found →
      walk.foldl (addMatch files) (e.dropFiles, "") = ((e.reload files).value.2, "")) ∧
    ((e.reload files).value.2.reload files).value = (.ok (), (e.reload files).value.2) := by
  have hindependent : ∀ e' : Engine, e'.Reachable → e'.glob = some text →
      (∀ n t, t.path = none → (e'.template? n = some t ↔ e.template? n = some t)) →
        (e'.reload files).value =
          (.ok (), { e' with templates := (e.loaded files found).templates }) := by
    intro e' he' hglob' hkept
    have hfound' : e'.found files = .ok found := by
      rw [← hfound]
      unfold Engine.found
      rw [hglob, hglob']
    obtain ⟨h', htemplates⟩ := h.templates_loaded hkept
    rw [he'.reload_of_loadable hglob' hfound' h', ← htemplates]
    rfl
  have hreload := he.reload_of_loadable hglob hfound h
  have hloaded : (e.loaded files found).Reachable := by
    have hchange := he.change (.reload files)
    simp only [Change.apply, hreload] at hchange
    exact hchange
  rw [hreload]
  refine ⟨rfl, ?_, hindependent, ?_, ?_⟩
  · intro n t
    rw [h.template?_loaded_eq_some_iff]
    refine or_congr Iff.rfl (exists_congr fun m => and_congr_right fun _ => ?_)
    constructor
    · rintro ⟨rfl, ht⟩
      exact ⟨rfl, Glob.Match.template?_eq_some_iff.mp ht⟩
    · rintro ⟨rfl, ht⟩
      exact ⟨rfl, Glob.Match.template?_eq_some_iff.mpr ht⟩
  · intro walk hwalk
    obtain ⟨hengine, hproblems⟩ := foldl_addMatch files walk e.dropFiles ""
    refine Prod.ext ?_ (hproblems.mpr ⟨rfl, (h.perm hwalk).template?_ne_none⟩)
    rw [hengine]
    exact h.loaded_perm hwalk
  · -- The templates without a file are those from before.
    refine hindependent _ hloaded hglob ?_
    intro n t hpath
    rw [h.template?_loaded_eq_some_iff]
    constructor
    · rintro (⟨ht, -⟩ | ⟨m, -, -, ht⟩)
      · exact ht
      · exact absurd hpath (Glob.Match.path_of_template? ht)
    · intro ht
      exact .inl ⟨ht, hpath⟩

/-- The page was changed and another one was written. -/
def pageFiles : Files :=
  (pageFile "b".toUTF8).write "v/c.html".toList "c".toUTF8

/-- The two pages. -/
def pageMatches : List Glob.Match :=
  [⟨"/w/v/a.html".toList, "a.html".toList⟩, ⟨"/w/v/c.html".toList, "c.html".toList⟩]

/-- The glob of pages describes both pages. -/
theorem found_pageFiles : noteEngine.found pageFiles = .ok pageMatches := by
  cbv

/-- Both pages can be loaded. -/
theorem loadable_pageFiles : Loadable noteEngine pageFiles pageMatches where
  readable m hm := by
    rcases List.mem_cons.mp hm with rfl | hm
    · exact ⟨"b", by cbv⟩
    · obtain rfl := List.mem_singleton.mp hm
      exact ⟨"c", by cbv⟩
  distinct := by decide
  apart := by decide

/-- A page that was changed and one that is new are both loaded, and the template that was added as
a text stays. -/
theorem reload_rebuilds_pages :
    (noteEngine.Reachable ∧ noteEngine.glob = some pages ∧
        noteEngine.found pageFiles = .ok pageMatches ∧
        Loadable noteEngine pageFiles pageMatches) ∧
      (noteEngine.reload pageFiles).value.1 = .ok () ∧
      (noteEngine.reload pageFiles).value.2.template? "note" = some note ∧
      (noteEngine.reload pageFiles).value.2.template? "a" =
        some { name := "a", path := some "/w/v/a.html", source := "b" } ∧
      (noteEngine.reload pageFiles).value.2.template? "c" =
        some { name := "c", path := some "/w/v/c.html", source := "c" } := by
  obtain ⟨hok, htemplates, -⟩ :=
    reload_rebuilds reachable_noteEngine rfl found_pageFiles loadable_pageFiles
  refine ⟨⟨reachable_noteEngine, rfl, found_pageFiles, loadable_pageFiles⟩, hok, ?_, ?_, ?_⟩
  · exact (htemplates _ _).mpr (.inl ⟨by cbv, rfl⟩)
  · exact (htemplates _ _).mpr
      (.inr ⟨_, List.mem_cons_self, by decide, "b", by cbv, rfl⟩)
  · exact (htemplates _ _).mpr
      (.inr ⟨_, List.mem_cons_of_mem _ List.mem_cons_self, by decide, "c", by cbv, rfl⟩)

/-- **A template that was added as a text stays** after a reload, whether that fails or not, exactly
if no file that can be read has its name; otherwise the template in such a file takes its place. -/
theorem reload_keeps_iff (he : e.Reachable) (ht : e.template? n = some t) (hpath : t.path = none)
    (files : Files) :
    (e.reload files).value.2.template? n = some t ↔
      ∀ found, e.found files = .ok found → ∀ m ∈ found, m.name = n → m.template? files = none := by
  have hkept : (e.template? n).filter (·.path.isNone) = some t := by
    rw [ht, Option.filter_some, if_pos (Option.isNone_iff_eq_none.mpr hpath)]
  rcases reload_cases he.glob files with ⟨hnone, hreload⟩ | ⟨fault, f, hfault, hreload⟩ |
    ⟨found, -, hfound, hreload, -⟩
  · rw [hreload]
    refine ⟨?_, fun _ => ht⟩
    intro _ found hfound m hm
    unfold Engine.found at hfound
    rw [hnone] at hfound
    cases hfound
    cases hm
  · rw [hreload, template?_dropFiles e, hkept]
    refine ⟨?_, fun _ => rfl⟩
    intro _ found hfound
    rw [hfault] at hfound
    cases hfound
  · rw [hreload]
    constructor
    · intro hstays found' hfound' m hm hname
      rw [hfound] at hfound'
      cases hfound'
      by_contra hreadable
      obtain ⟨t', ht'⟩ := Option.ne_none_iff_exists'.mp hreadable
      obtain ⟨m', -, -, t', ht', hfind⟩ := exists_template?_loaded e hm ht'
      rw [← hname, hfind] at hstays
      cases hstays
      exact absurd hpath (Glob.Match.path_of_template? ht')
    · intro hall
      rw [template?_loaded e (hall found hfound), hkept]

/-- The template that was added as a text stays, since the page has another name. -/
theorem reload_keeps_note :
    (noteEngine.Reachable ∧ noteEngine.template? "note" = some note ∧ note.path = none) ∧
      (noteEngine.reload (pageFile "b".toUTF8)).value.2.template? "note" = some note := by
  have hnote : noteEngine.template? "note" = some note := by cbv
  refine ⟨⟨reachable_noteEngine, hnote, rfl⟩,
    (reload_keeps_iff reachable_noteEngine hnote rfl _).mpr ?_⟩
  intro found hfound m hm hname
  rw [found_noteEngine] at hfound
  cases hfound
  rw [List.mem_singleton.mp hm] at hname
  exact absurd hname (by decide)

/-- Not every template that was added as a text stays after a reload: one that has the name of a
page is replaced by it. -/
theorem not_forall_reload_keeps :
    ¬ ∀ (e : Engine) (files : Files) (name source : String), e.Reachable → e.glob.isSome →
      ((e.add name source).reload files).value.2.template? name =
        some { name, path := none, source } := by
  intro h
  have hkept := h pageEngine (pageFile "b".toUTF8) "a" "text" reachable_pageEngine rfl
  exact absurd hkept (by decide +kernel)

/-- **What a failed reload leaves.** It is refused for an engine without a glob, which stays as it
is. If the glob spells no pattern, exactly the templates with a file are gone. Otherwise a file
cannot be read: then the templates in those that can be read are there, and under all other names
what was added as a text, as it was, and nothing else. -/
theorem reload_failed (he : e.Reachable) {f : Failure} (h : (e.reload files).value.1 = .error f) :
    let e' := (e.reload files).value.2
    (e'.glob = e.glob ∧ e'.config = e.config ∧ e'.maxDepth = e.maxDepth) ∧
    ((e.glob = none ∧ f = noGlob ∧ e' = e) ∨
    (∃ fault, e.found files = .error fault ∧
      ∀ n, e'.template? n = (e.template? n).filter (·.path.isNone)) ∨
    ∃ found, e.glob ≠ none ∧ e.found files = .ok found ∧ (∃ m ∈ found, m.template? files = none) ∧
      (∀ n, (∀ m ∈ found, m.name = n → m.template? files = none) →
        e'.template? n = (e.template? n).filter (·.path.isNone)) ∧
      ∀ m ∈ found, m.template? files ≠ none →
        (∀ t, e.template? m.name = some t → t.path ≠ none) →
          ∃ m' ∈ found, m'.name = m.name ∧ m'.template? files ≠ none ∧
            e'.template? m.name = m'.template? files) := by
  intro e'
  rcases reload_cases he.glob files with ⟨hnone, hreload⟩ | ⟨fault, f', hfault, hreload⟩ |
    ⟨found, hglob, hfound, hreload, hok⟩
  · have he' : e' = e := congrArg Prod.snd hreload
    rw [hreload] at h
    cases h
    rw [he']
    exact ⟨⟨rfl, rfl, rfl⟩, .inl ⟨hnone, rfl, rfl⟩⟩
  · have he' : e' = e.dropFiles := congrArg Prod.snd hreload
    rw [he']
    exact ⟨⟨rfl, rfl, rfl⟩, .inr (.inl ⟨fault, hfault, template?_dropFiles e⟩)⟩
  · have he' : e' = e.loaded files found := hreload
    rw [he']
    refine ⟨⟨rfl, rfl, rfl⟩, .inr (.inr ⟨found, hglob, hfound, ?_, ?_, ?_⟩)⟩
    · by_contra hall
      have hsuccess : (e.reload files).value.1 = .ok () :=
        hok.mpr fun m hm hnone => hall ⟨m, hm, hnone⟩
      rw [hsuccess] at h
      cases h
    · intro n hn
      exact template?_loaded e hn
    · intro m hm hreadable _
      obtain ⟨t, ht⟩ := Option.ne_none_iff_exists'.mp hreadable
      obtain ⟨m', hm', hname, t', ht', hfind⟩ := exists_template?_loaded e hm ht
      refine ⟨m', hm', hname, ?_, ?_⟩
      · rw [ht']
        exact Option.some_ne_none t'
      · rw [hfind, ht']

/-- The page is no text any more. -/
def brokenPage : Files :=
  pageFile ⟨#[0xff]⟩

/-- What is reported about it. -/
def brokenPageFailure : Failure :=
  .other "\n* Couldn't read '/w/v/a.html' (InvalidData)\nstream did not contain valid UTF-8"

/-- The reload fails. -/
theorem reload_brokenPage : (noteEngine.reload brokenPage).value.1 = .error brokenPageFailure := by
  cbv

/-- There is no template in the page any more. -/
theorem template?_brokenPage (m : Glob.Match)
    (hm : m ∈ [(⟨"/w/v/a.html".toList, "a.html".toList⟩ : Glob.Match)]) :
    m.template? brokenPage = none := by
  rw [List.mem_singleton.mp hm]
  cbv

/-- The reload of a page that is no text any more fails. The page is gone, and the template that was
added as a text stays. -/
theorem reload_failed_page :
    (noteEngine.Reachable ∧ (noteEngine.reload brokenPage).value.1 = .error brokenPageFailure) ∧
      (noteEngine.reload brokenPage).value.2.template? "a" = none ∧
      (noteEngine.reload brokenPage).value.2.template? "note" = some note := by
  refine ⟨⟨reachable_noteEngine, reload_brokenPage⟩, ?_⟩
  rcases (reload_failed reachable_noteEngine reload_brokenPage).2 with ⟨hnone, -⟩ |
    ⟨fault, hfault, -⟩ | ⟨found, -, hfound, -, hothers, -⟩
  · cases hnone
  · rw [brokenPage, found_noteEngine] at hfault
    cases hfault
  · rw [brokenPage, found_noteEngine] at hfound
    cases hfound
    constructor
    · rw [hothers "a" fun m hm _ => template?_brokenPage m hm]
      decide
    · rw [hothers "note" fun m hm _ => template?_brokenPage m hm]
      decide

/-- A failed reload does not leave the templates as they were: those in files that cannot be read
any more are gone. -/
theorem not_forall_reload_failed :
    ¬ ∀ (e : Engine) (files : Files) (f : Failure), e.Reachable →
      (e.reload files).value.1 = .error f → ∀ n,
        ((e.reload files).value.2.template? n).map (·.source) =
          (e.template? n).map (·.source) := by
  intro h
  have hkept := h noteEngine brokenPage brokenPageFailure reachable_noteEngine reload_brokenPage "a"
  exact absurd hkept (by decide +kernel)

end HtmlViews.Engine
