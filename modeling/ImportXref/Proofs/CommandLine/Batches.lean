import ImportXref.Proofs.CommandLine.Jobs
import ImportXref.Proofs.Text.Utf8
import Mathlib.Data.List.Nodup

/-!
# Batches — which reports are there in the end

A batch that succeeds has scanned each of its projects in its turn and written both reports.  All
of them go into one directory, so a later report takes the place of an earlier one if both have
the same place.  That is so for two projects of one name.

* `reports_of_run`: what stands under the path of each report, and which reports are kept.
* `sameName_overwritten`: two projects of one name.
-/

namespace ImportXref

open ImportXref.Tree (Leads)
open View (Write lastWrite?)

namespace Progress

variable {p : Progress}

theorem andThen_of_ok (h : p.trace.result = .ok ()) (next : View → Progress) :
    (p.andThen next).view = (next p.view).view ∧
      (p.andThen next).trace.result = (next p.view).trace.result := by
  simp [andThen, h, Traced.result_andThen, Except.bind]

/-- Two steps succeed exactly if both do. -/
theorem result_andThen_eq_ok_iff {next : View → Progress} : (p.andThen next).trace.result = .ok () ↔
    p.trace.result = .ok () ∧ (next p.view).trace.result = .ok () := by
  cases h : p.trace.result with
  | error f => simp [andThen, h]
  | ok u => simpa using iff_of_eq (congrArg (· = .ok ()) (andThen_of_ok h next).2)

end Progress

theorem Job.name_of_scan {job : Job} {patterns : List Text} {v : View} {root : Path} {name : Text}
    {s : Scan} (h : (job.scan patterns v).result = .ok (root, name, s)) :
    name = job.projectName root := by
  obtain ⟨root', -, h⟩ := Traced.result_andThen_eq_ok_iff.mp h
  obtain ⟨s', -, h⟩ := Traced.result_andThen_eq_ok_iff.mp h
  cases h
  rfl

namespace Batch

/-- The turn of a project in a batch: what its scan found and where its reports were put. -/
structure Turn where
  project : Project
  root : Path
  scan : Scan
  jsonPlace : Location
  htmlPlace : Location

variable {config : Config} {json : Bool} {v w : View}

/-- How the reports of a turn are written. -/
def Turn.output (config : Config) (t : Turn) : Export :=
  (job config t.project).output t.root t.project.name

/-- The reports of a turn as they were written. -/
def Turn.writes (config : Config) (t : Turn) : List Write :=
  let html := (t.output config).htmlReport t.scan.index
  let json := (t.output config).jsonReport t.scan.index
  [⟨json.path, t.jsonPlace, json.contents.utf8⟩, ⟨html.path, t.htmlPlace, html.contents.utf8⟩]

/-- The scan of a project as a turn finds it. -/
def IsScanned (config : Config) (v : View) (t : Turn) : Prop :=
  ((job config t.project).scan config.patterns v).result = .ok (t.root, t.project.name, t.scan)

/-! ### Turns -/

/-- **A project that is run has a turn**: it is scanned, and its reports are written. -/
theorem exists_turn {p : Project} (h : (runProject config json p v).trace.result = .ok ()) :
    ∃ t : Turn, t.project = p ∧ IsScanned config v t ∧
      v.Writes (t.writes config) (runProject config json p v).view := by
  have hjob : ((job config p).run config.patterns json v).trace.result = .ok () :=
    Traced.result_within_eq_ok_iff.mp h
  obtain ⟨root, name, s, ws, hscan, hws, hwrites⟩ := Job.writes_of_run rfl hjob
  obtain rfl : name = p.name := Job.name_of_scan hscan
  rw [Export.reports_of_all rfl] at hws
  cases hws with
  | @cons jsonWrite _ _ _ hjson hws =>
      cases hws with
      | @cons htmlWrite _ _ _ hhtml hws =>
          cases hws
          obtain ⟨jsonPath, jsonPlace, jsonBytes⟩ := jsonWrite
          obtain ⟨htmlPath, htmlPlace, htmlBytes⟩ := htmlWrite
          obtain ⟨rfl, rfl⟩ := hjson
          obtain ⟨rfl, rfl⟩ := hhtml
          exact ⟨⟨p, root, s, jsonPlace, htmlPlace⟩, rfl, hscan, hwrites⟩

/-- The turns of a batch that succeeds. -/
theorem exists_turns {ps : List Project}
    (h : (runProjects config json v ps).trace.result = .ok ()) :
    ∃ ts : List Turn, ts.map Turn.project = ps ∧
      (∀ before t after, ts = before ++ t :: after →
        IsScanned config (runProjects config json v (before.map Turn.project)).view t) ∧
      v.Writes (ts.flatMap (Turn.writes config)) (runProjects config json v ps).view := by
  induction ps generalizing v with
  | nil => exact ⟨[], rfl, by simp, .nil (.refl v)⟩
  | cons p ps ih =>
      obtain ⟨hfirst, hrest⟩ := Progress.result_andThen_eq_ok_iff.mp h
      obtain ⟨t, rfl, hscan, hwrites⟩ := exists_turn hfirst
      obtain ⟨ts, rfl, hscans, hlater⟩ := ih hrest
      refine ⟨t :: ts, rfl, fun before t' after hts => ?_, ?_⟩
      · cases before with
        | nil =>
            obtain ⟨rfl, -⟩ := List.cons_eq_cons.mp hts
            exact hscan
        | cons first before =>
            obtain ⟨rfl, htail⟩ := List.cons_eq_cons.mp hts
            rw [List.map_cons, runProjects, (Progress.andThen_of_ok hfirst _).1]
            exact hscans before t' after htail
      · rw [runProjects, (Progress.andThen_of_ok hfirst _).1, List.flatMap_cons]
        exact hwrites.append hlater

/-! ### Names of reports -/

/-- The name of the file that a report is written to. -/
def reportName (name : Text) (ending : String) : Bytes :=
  Text.utf8 ("xref_".toList ++ name ++ ending.toList)

/-- The endings of the two reports. -/
def endings : List String := [".json", ".html"]

/-- The name of a report tells the project and the ending. -/
theorem reportName_inj {m n : Text} {e e' : String} (he : e ∈ endings) (he' : e' ∈ endings)
    (h : reportName m e = reportName n e') : m = n ∧ e = e' := by
  have htext : "xref_".toList ++ m ++ e.toList = "xref_".toList ++ n ++ e'.toList := by
    rw [← Bytes.text_utf8 ("xref_".toList ++ m ++ e.toList), ← reportName, h, reportName,
      Bytes.text_utf8]
  have hlength : ∀ e ∈ endings, e.toList.length = 5 := by decide
  obtain ⟨hname, hending⟩ := List.append_inj' htext ((hlength e he).trans (hlength e' he').symm)
  exact ⟨List.append_cancel_left hname, String.toList_inj.mp hending⟩

theorem isFileName_reportName {name : Text} {ending : String} (hending : ending ∈ endings)
    (hslash : '/' ∉ name) (hnul : 0 ∉ reportName name ending) :
    IsFileName (reportName name ending) := by
  have hstart : ∃ rest, reportName name ending = 120 :: rest := ⟨_, rfl⟩
  obtain ⟨rest, hrest⟩ := hstart
  refine ⟨?_, ?_, ?_, ?_, hnul⟩
  · rw [hrest]; exact List.cons_ne_nil _ _
  · rw [hrest]; simp
  · rw [hrest]; simp
  · rw [reportName, Text.slash_mem_utf8_iff, List.mem_append, List.mem_append]
    have hends : ∀ e ∈ endings, '/' ∉ e.toList := by decide
    rintro ((h | h) | h)
    · revert h; decide
    · exact hslash h
    · exact hends ending hending h

/-- The directory of the reports. -/
def reportsDirectory (config : Config) : Path :=
  config.reportsDir.getD defaultReportsDir

/-- The reports go to places of their own: the projects have different names without slashes, and
no link stands in the place of a report. -/
structure AreApart (config : Config) (w : View) : Prop where
  nodup : (config.projects.map Project.name).Nodup
  slash_notMem : ∀ p ∈ config.projects, '/' ∉ p.name
  unlinked : ∀ dir k, Leads w.tree (w.start (reportsDirectory config))
      (reportsDirectory config).named k (.entry dir .directory) →
    ∀ p ∈ config.projects, ∀ ending ∈ endings,
      ¬ w.tree.IsLink (dir ++ [reportName p.name ending])

/-- A turn writes reports of its project into the directory for reports. -/
theorem path_of_mem_writes {t : Turn} {r : Write} (h : r ∈ t.writes config) :
    ∃ ending ∈ endings, r.path =
      (reportsDirectory config).join ⟨reportName t.project.name ending⟩ := by
  obtain rfl | rfl : r = _ ∨ r = _ := by simpa [Turn.writes] using h
  · exact ⟨".json", by decide, rfl⟩
  · exact ⟨".html", by decide, rfl⟩

variable {ts : List Turn}

/-- Reports that are apart stand in one directory, each under its name. -/
theorem place_of_mem_writes (hwrites : v.Writes (ts.flatMap (Turn.writes config)) w)
    (hprojects : ts.map Turn.project = config.projects) (hapart : AreApart config w)
    {t : Turn} (ht : t ∈ ts) {r : Write} (hr : r ∈ t.writes config) {ending : String}
    (hending : ending ∈ endings)
    (hpath : r.path = (reportsDirectory config).join ⟨reportName t.project.name ending⟩) :
    ∃ dir k, Leads w.tree (w.start (reportsDirectory config))
      (reportsDirectory config).named k (.entry dir .directory) ∧
        r.place = dir ++ [reportName t.project.name ending] := by
  have hmem : r ∈ ts.flatMap (Turn.writes config) := List.mem_flatMap.mpr ⟨t, ht, hr⟩
  have hproject : t.project ∈ config.projects := hprojects ▸ List.mem_map_of_mem ht
  have hnul : 0 ∉ reportName t.project.name ending := fun h => by
    obtain ⟨last, -, hstatus⟩ := hwrites.status_of_mem hmem
    have hnul := View.nul_notMem_of_status hstatus
    rw [hpath] at hnul
    exact hnul (Path.mem_bytes_join (p := reportsDirectory config) (q := ⟨_⟩) h)
  have hname := isFileName_reportName hending (hapart.slash_notMem _ hproject) hnul
  obtain ⟨dir, k, hdir, hplace⟩ := hwrites.place_of_mem hmem hname hpath
  exact ⟨dir, k, hdir,
    hplace.resolve_right (hapart.unlinked dir k hdir _ hproject ending hending)⟩

/-- Reports that are apart go to different places. -/
theorem nodup_places (hwrites : v.Writes (ts.flatMap (Turn.writes config)) w)
    (hprojects : ts.map Turn.project = config.projects) (hapart : AreApart config w) :
    ((ts.flatMap (Turn.writes config)).map Write.place).Nodup := by
  have hsame {t t' : Turn} (ht : t ∈ ts) (ht' : t' ∈ ts) {r r' : Write}
      (hr : r ∈ t.writes config) (hr' : r' ∈ t'.writes config) {e e' : String} (he : e ∈ endings)
      (he' : e' ∈ endings)
      (hpath : r.path = (reportsDirectory config).join ⟨reportName t.project.name e⟩)
      (hpath' : r'.path = (reportsDirectory config).join ⟨reportName t'.project.name e'⟩)
      (hplace : r.place = r'.place) : t.project.name = t'.project.name ∧ e = e' := by
    obtain ⟨dir, -, -, hdir⟩ := place_of_mem_writes hwrites hprojects hapart ht hr he hpath
    obtain ⟨dir', -, -, hdir'⟩ := place_of_mem_writes hwrites hprojects hapart ht' hr' he' hpath'
    rw [hdir, hdir'] at hplace
    exact reportName_inj he he' (List.singleton_inj.mp (List.append_inj' hplace rfl).2)
  have hnames : ts.Pairwise fun t t' => t.project.name ≠ t'.project.name := by
    have hnodup := hapart.nodup
    rwa [← hprojects, List.map_map, List.Nodup, List.pairwise_map] at hnodup
  rw [List.Nodup, List.pairwise_map, List.pairwise_flatMap]
  refine ⟨fun t ht => ?_, hnames.imp_of_mem fun {t t'} ht ht' hne r hr r' hr' hplace => ?_⟩
  · refine List.pairwise_pair.mpr fun hplace => ?_
    have hjson : (".json" : String) = ".html" :=
      (hsame ht ht (List.mem_cons_self ..) (List.mem_cons_of_mem _ (List.mem_cons_self ..))
        (by decide) (by decide) rfl rfl hplace).2
    exact absurd hjson (by decide)
  · obtain ⟨e, he, hpath⟩ := path_of_mem_writes hr
    obtain ⟨e', he', hpath'⟩ := path_of_mem_writes hr'
    exact hne (hsame ht ht' hr hr' he he' hpath hpath' hplace).1

/-! ### Batches -/

/-- **The reports of a batch.**  A batch that succeeds has scanned every project, in the tree that
the projects before it have left, and has written both of its reports.  In the end the path of
each report leads to its place, where the last report is found that was written there: a report is
kept exactly if that one does not differ from it.  All reports are kept if their places differ, and
so they do if the projects have different names without slashes and no links stand in the way. -/
theorem reports_of_run {path : Path} (h : (run path json v).trace.result = .ok ()) :
    ∃ config ts, Config.ofFile v path = .ok config ∧ ts ≠ [] ∧
      ts.map Turn.project = config.projects ∧
      (∀ before t after, ts = before ++ t :: after →
        IsScanned config (runProjects config json v (before.map Turn.project)).view t) ∧
      (∀ r ∈ ts.flatMap (Turn.writes config), ∃ last,
        lastWrite? (ts.flatMap (Turn.writes config)) r.place = some last ∧
          (run path json v).view.status r.path = .ok (r.place, .file last)) ∧
      (∀ r ∈ ts.flatMap (Turn.writes config),
        (run path json v).view.read r.path = .ok r.contents ↔
          lastWrite? (ts.flatMap (Turn.writes config)) r.place = some r.contents) ∧
      (((ts.flatMap (Turn.writes config)).map Write.place).Nodup →
        ∀ r ∈ ts.flatMap (Turn.writes config),
          (run path json v).view.read r.path = .ok r.contents) ∧
      (AreApart config (run path json v).view → ∀ r ∈ ts.flatMap (Turn.writes config),
        (run path json v).view.read r.path = .ok r.contents) := by
  unfold run at h ⊢
  cases hconfig : Config.ofFile v path with
  | error f => simp [hconfig] at h
  | ok config =>
      simp only [hconfig] at h ⊢
      split at h
      · cases h
      next hne =>
      rw [if_neg hne]
      obtain ⟨ts, hprojects, hscans, hwrites⟩ := exists_turns h
      have hkept (hnodup : ((ts.flatMap (Turn.writes config)).map Write.place).Nodup) :
          ∀ r ∈ ts.flatMap (Turn.writes config),
            (runProjects config json v config.projects).view.read r.path = .ok r.contents :=
        fun r hr => (hwrites.read_eq_iff hr).mpr (View.lastWrite?_of_nodup hnodup hr)
      refine ⟨config, ts, rfl, ?_, hprojects, hscans, fun r hr => hwrites.status_of_mem hr,
        fun r hr => hwrites.read_eq_iff hr, hkept,
        fun hapart => hkept (nodup_places hwrites hprojects hapart)⟩
      rintro rfl
      exact hne hprojects.symm

/-- A batch of two projects with the same name, one of a file `a.py` and one of a file `b.py`. -/
def sameName : View :=
  let bytes (s : String) : Bytes := Text.utf8 s.toList
  ⟨⟨[([bytes "one"], .directory), ([bytes "one", bytes "a.py"], .file (bytes "import os\n")),
    ([bytes "two"], .directory), ([bytes "two", bytes "b.py"], .file (bytes "import re\n")),
    ([bytes "batch.toml"], .file (bytes ("[[projects]]\nname = \"p\"\nroot = \"one\"\n" ++
      "sources = [\"a.py\"]\n\n[[projects]]\nname = \"p\"\nroot = \"two\"\n" ++
      "sources = [\"b.py\"]\n")))]⟩, []⟩

/-- What the file of that batch spells. -/
def twice : Config :=
  ⟨none, none, [⟨"p".toList, .ofText "one".toList, ["a.py".toList]⟩,
    ⟨"p".toList, .ofText "two".toList, ["b.py".toList]⟩]⟩

/-- The batch succeeds, but the JSON report of the first project is not kept. -/
theorem sameName_overwritten :
    (run (.ofText "batch.toml".toList) false sameName).trace.result = .ok () ∧
    ∃ (config : Config) (ts : List Turn),
      Config.ofFile sameName (.ofText "batch.toml".toList) = .ok config ∧
      ts.map Turn.project = config.projects ∧ ∃ r ∈ ts.flatMap (Turn.writes config),
        r.contents = Text.utf8 "\x7b\n  \"a\": []\n\x7d".toList ∧
        (run (.ofText "batch.toml".toList) false sameName).view.read r.path =
          .ok (Text.utf8 "\x7b\n  \"b\": []\n\x7d".toList) := by
  have hok : (run (.ofText "batch.toml".toList) false sameName).trace.result = .ok () := by
    decide +kernel
  have hconfig : Config.ofFile sameName (.ofText "batch.toml".toList) = .ok twice := by
    decide +kernel
  obtain ⟨config, ts, hfile, -, hprojects, hscans, -⟩ := reports_of_run hok
  obtain rfl : twice = config := Except.ok.inj (hconfig.symm.trans hfile)
  refine ⟨hok, twice, ts, hfile, hprojects, ?_⟩
  cases ts with
  | nil => cases hprojects
  | cons t ts =>
      -- The first turn is that of the first project, in the tree as it was.
      obtain ⟨hproject, -⟩ := List.cons_eq_cons.mp hprojects
      have hscan := hscans [] t ts rfl
      obtain ⟨project, root, scan, jsonPlace, htmlPlace⟩ := t
      obtain rfl : project = _ := hproject
      have hscanned : ∃ s, ((job twice ⟨"p".toList, .ofText "one".toList, ["a.py".toList]⟩).scan
          twice.patterns sameName).result = .ok (.ofText "/one".toList, "p".toList, s) ∧
            (s.index.json false).utf8 = Text.utf8 "\x7b\n  \"a\": []\n\x7d".toList :=
        ⟨_, rfl, by decide +kernel⟩
      obtain ⟨s, hs, hjson⟩ := hscanned
      have hsame : (root, "p".toList, scan) = (.ofText "/one".toList, "p".toList, s) :=
        Except.ok.inj (hscan.symm.trans hs)
      cases hsame
      have hkept : (run (.ofText "batch.toml".toList) false sameName).view.read
          (.ofText "./xref_p.json".toList) =
            .ok (Text.utf8 "\x7b\n  \"b\": []\n\x7d".toList) := by decide +kernel
      exact ⟨_, List.mem_flatMap.mpr ⟨_, List.mem_cons_self, List.mem_cons_self⟩, hjson, hkept⟩

end Batch

end ImportXref
