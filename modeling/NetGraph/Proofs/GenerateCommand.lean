import NetGraph.Command.Arguments
import NetGraph.Proofs.Files

/-!
# The command that generates a manifest

* `CommandLine.Options` : the options before and after the name of a command.
  `CommandLine.exists_options` : a command line that is understood is read from these, and
  `Settings.manifestPath?` says where they send a manifest;
* `Configured`, `Loaded` : the configuration and the graph that a state of the files gives;
* `NoManifest`, `Manifest` : why there is no manifest for a target, or which one there is. It is one
  of the two (`noManifest_or_manifest`), in the terms of the files alone;
* `run_bind_ok`, `run_bind_error`, `run_lift` : a command is an action that can fail, over a state.
  By these each of its stages is taken for itself: `loadConfig_run`, `openStore_run`, `deliver_run_out`
  and `deliver_run_file`;
* `generate_report` : without a manifest the command fails and leaves the files alone; with one it
  puts it out, or writes just that one file.
-/

namespace NetGraph

/-! ## The command line -/

theorem CommandName.name_of_ofName? {name : String} {command : CommandName}
    (h : CommandName.ofName? name = some command) : command.name = name := by
  have hname := List.find?_some h
  exact of_decide_eq_true hname

namespace Settings

/-- The path of a manifest's file, if it goes to one, by the options of a command line. -/
def manifestPath? (options : Settings) (c : Config) (fileName : String) : Option String :=
  (options.lookup .out).or
    (((options.lookup .outDir).or c.outDir).map (FilePath.inside · fileName))

theorem path?_of_destination {options : Settings} {d : Destination}
    (h : options.destination = .ok d) (c : Config) (fileName : String) :
    d.path? c fileName = options.manifestPath? c fileName := by
  unfold destination at h
  unfold manifestPath?
  split at h
  · cases h
  all_goals
    next hout hdir =>
    obtain rfl := Except.ok.inj h
    rw [hout, hdir]
    rfl

/-- Only the command `generate` asks for a manifest, and its options say for which. -/
theorem request_eq_generate {options : Settings} {command : CommandName} {graph : Option String}
    {target : String} {d : Destination}
    (h : options.request command = .ok (.generate graph target d)) :
    command = .generate ∧ options.lookup .graph = graph ∧
      options.lookup .target = some target ∧ options.destination = .ok d := by
  cases command with
  | validate => cases h
  | connectCheck =>
    obtain ⟨source, -, h⟩ := except_bind_eq_ok h
    obtain ⟨target, -, h⟩ := except_bind_eq_ok h
    cases h
  | generate =>
    obtain ⟨target', htarget, h⟩ := except_bind_eq_ok h
    obtain ⟨d', hd, h⟩ := except_bind_eq_ok h
    obtain ⟨rfl, rfl, rfl⟩ := Request.generate.inj (Except.ok.inj h)
    refine ⟨rfl, rfl, ?_, hd⟩
    unfold Settings.required at htarget
    cases hlookup : options.lookup .target with
    | none =>
      rw [hlookup] at htarget
      cases htarget
    | some given =>
      rw [hlookup] at htarget
      exact congrArg some (Except.ok.inj htarget)

end Settings

namespace CommandLine

/-- The options that stand before and after the name of a command. -/
def Options (arguments : List String) (command : CommandName) (outer inner : Settings) : Prop :=
  ∃ rest, scan Flag.everywhere [] arguments = .ok (.stopped outer command.name rest) ∧
    scan (Flag.everywhere ++ command.flags) [] rest = .ok (.finished inner)

theorem Options.unique {arguments : List String} {command : CommandName}
    {outer outer' inner inner' : Settings} (h : Options arguments command outer inner)
    (h' : Options arguments command outer' inner') : outer = outer' ∧ inner = inner' := by
  obtain ⟨rest, hscan, hinner⟩ := h
  obtain ⟨rest', hscan', hinner'⟩ := h'
  obtain ⟨rfl, -, rfl⟩ := Scanned.stopped.inj (Except.ok.inj (hscan.symm.trans hscan'))
  exact ⟨rfl, Scanned.finished.inj (Except.ok.inj (hinner.symm.trans hinner'))⟩

theorem ofHelp_ne_run (arguments : List String) (i : Invocation) :
    ofHelp arguments ≠ .ok (.run i) := by
  unfold ofHelp
  repeat' split
  all_goals exact nofun

theorem ofCommand_eq_run {outer : Settings} {command : CommandName} {rest : List String}
    {i : Invocation} (h : ofCommand outer command rest = .ok (.run i)) :
    ∃ options, scan (Flag.everywhere ++ command.flags) [] rest = .ok (.finished options) ∧
      i.config = ((options ++ outer).lookup .config).getD defaultConfigPath ∧
      options.request command = .ok i.request := by
  unfold ofCommand at h
  obtain ⟨inner, hinner, h⟩ := except_bind_eq_ok h
  cases inner with
  | help => cases h
  | stopped _ _ _ => cases h
  | finished options =>
    obtain ⟨request, hrequest, h⟩ := except_bind_eq_ok h
    obtain rfl := CommandLine.run.inj (Except.ok.inj h)
    exact ⟨options, hinner, rfl, hrequest⟩

/-- A command line that is understood names a command, with options that say what to do. -/
theorem exists_options {arguments : List String} {i : Invocation}
    (h : ofArguments arguments = .ok (.run i)) :
    ∃ command outer options, Options arguments command outer options ∧
      i.config = ((options ++ outer).lookup .config).getD defaultConfigPath ∧
      options.request command = .ok i.request := by
  unfold ofArguments at h
  obtain ⟨scanned, hscan, h⟩ := except_bind_eq_ok h
  cases scanned with
  | help => cases h
  | finished _ => cases h
  | stopped outer name rest =>
    dsimp only at h
    by_cases hhelp : name = helpWord
    · rw [if_pos hhelp] at h
      exact absurd h (ofHelp_ne_run rest i)
    rw [if_neg hhelp] at h
    cases hname : CommandName.ofName? name with
    | none =>
      rw [hname] at h
      cases h
    | some command =>
      rw [hname] at h
      obtain rfl := CommandName.name_of_ofName? hname
      obtain ⟨options, hinner, hconfig, hrequest⟩ := ofCommand_eq_run h
      exact ⟨command, outer, options, ⟨rest, hscan, hinner⟩, hconfig, hrequest⟩

end CommandLine

/-! ## What is read -/

section Reading
variable {σ : Type} [Files (StateM σ)] (s : σ)

/-- The configuration at a path; it is empty if there is no file. -/
inductive Configured (path : String) : Config → Prop where
  | absent : Files.textAt s path = .error .notFound → Configured path {}
  | read {text : String} {c : Config} : Files.textAt s path = .ok text →
      Config.ofYaml text = .ok c → Configured path c

/-- The configuration, and the graph at the path given or else at that of the configuration. -/
structure Loaded (config : String) (graph : Option String) (c : Config) (g : Snapshot) : Prop where
  configured : Configured s config c
  graph : ∃ path text, graph.or c.graph = some path ∧ Files.textAt s path = .ok text ∧
    Snapshot.ofYaml text = .ok g

/-- Why there is no manifest for a target. -/
inductive NoManifest (config : String) (graph : Option String) (target : String) : Prop where
  | configFile {e : FileError} : Files.textAt s config = .error e → e ≠ .notFound →
      NoManifest config graph target
  | configDocument {text : String} {e : Yaml.ReadError} : Files.textAt s config = .ok text →
      Config.ofYaml text = .error e → NoManifest config graph target
  | noGraph {c : Config} : Configured s config c → graph.or c.graph = none →
      NoManifest config graph target
  | graphFile {c : Config} {path : String} {e : FileError} : Configured s config c →
      graph.or c.graph = some path → Files.textAt s path = .error e →
      NoManifest config graph target
  | graphDocument {c : Config} {path text : String} {e : Yaml.ReadError} : Configured s config c →
      graph.or c.graph = some path → Files.textAt s path = .ok text →
      Snapshot.ofYaml text = .error e → NoManifest config graph target
  | refused {c : Config} {g : Snapshot} : Loaded s config graph c g →
      (generate (some target) g (validate g)).isRendered = false → NoManifest config graph target

/-- The manifest of a target, with the configuration. -/
def Manifest (config : String) (graph : Option String) (target : String) (c : Config)
    (m : Generated) : Prop :=
  ∃ g, Loaded s config graph c g ∧ generate (some target) g (validate g) = .rendered m

theorem Outcome.exists_rendered {f : Outcome} (h : f.isRendered = true) :
    ∃ m, f = .rendered m := by
  cases f with
  | rendered m => exact ⟨m, rfl⟩
  | _ => cases h

theorem noManifest_or_manifest (config : String) (graph : Option String) (target : String) :
    NoManifest s config graph target ∨ ∃ c m, Manifest s config graph target c m := by
  have hgraph : ∀ c, Configured s config c →
      NoManifest s config graph target ∨ ∃ c m, Manifest s config graph target c m := by
    intro c hc
    cases hpath : graph.or c.graph with
    | none => exact .inl (.noGraph hc hpath)
    | some path =>
      cases htext : Files.textAt s path with
      | error e => exact .inl (.graphFile hc hpath htext)
      | ok text =>
        cases hg : Snapshot.ofYaml text with
        | error e => exact .inl (.graphDocument hc hpath htext hg)
        | ok g =>
          have hloaded : Loaded s config graph c g := ⟨hc, path, text, hpath, htext, hg⟩
          cases hrendered : (generate (some target) g (validate g)).isRendered with
          | false => exact .inl (.refused hloaded hrendered)
          | true =>
            obtain ⟨m, hm⟩ := Outcome.exists_rendered hrendered
            exact .inr ⟨c, m, g, hloaded, hm⟩
  cases htext : Files.textAt s config with
  | error e =>
    by_cases he : e = .notFound
    · exact hgraph _ (.absent (he ▸ htext))
    · exact .inl (.configFile htext he)
  | ok text =>
    cases hc : Config.ofYaml text with
    | error e => exact .inl (.configDocument htext hc)
    | ok c => exact hgraph c (.read htext hc)

end Reading

/-! ## What a run does -/

/-- The configuration that is had from a file. -/
def Config.ofFile : Except FileError String → Except LoadError Config
  | .error .notFound => .ok {}
  | .error e => .error (.configFile e)
  | .ok text => (Config.ofYaml text).mapError .configDocument

/-- The graph that is had from a file. -/
def Snapshot.ofFile (path : String) : Except FileError String → Except LoadError Snapshot
  | .error e => .error (.graphFile path e)
  | .ok text => (Snapshot.ofYaml text).mapError (.graphDocument path)

/-- What is reported of an attempt. -/
def Report.ofAttempt : Except Failure Report → Report
  | .ok report => report
  | .error failure => { code := 1, err := failure.report }

section Running
variable {σ α β : Type} {s t : σ}

/-- What follows an action that gives a value. -/
theorem run_bind_ok {act : ExceptT Failure (StateM σ) α} {a : α}
    (h : act.run.run s = (.ok a, t)) (next : α → ExceptT Failure (StateM σ) β) :
    (act >>= next).run.run s = (next a).run.run t := by
  rw [ExceptT.run_bind, StateT.run_bind, h]
  rfl

/-- Nothing follows an action that fails. -/
theorem run_bind_error {act : ExceptT Failure (StateM σ) α} {f : Failure}
    (h : act.run.run s = (.error f, t)) (next : α → ExceptT Failure (StateM σ) β) :
    (act >>= next).run.run s = (.error f, t) := by
  rw [ExceptT.run_bind, StateT.run_bind, h]
  rfl

theorem run_lift {act : StateM σ α} {a : α} (h : act.run s = (a, t)) :
    (monadLift act : ExceptT Failure (StateM σ) α).run.run s = (.ok a, t) := by
  rw [ExceptT.run_monadLift, StateT.run_map]
  change (Except.ok (act.run s).1, (act.run s).2) = _
  rw [h]

variable [Files (StateM σ)]

/-- A working graph is had if the graph's file can be loaded. -/
theorem openStore_run {graph : Option String} {c : Config} {path : String}
    {x : Except LoadError Snapshot} (hpath : graph.or c.graph = some path)
    (hx : (loadGraph path : StateM σ _).run s = (x, t)) :
    (openStore graph c : ExceptT Failure (StateM σ) Store).run.run s =
      ((x.mapError .load).map Store.ofSnapshot, t) := by
  unfold openStore
  rw [hpath]
  cases x <;> exact run_bind_ok (run_lift hx) _

theorem openStore_run_noGraph {graph : Option String} {c : Config} (h : graph.or c.graph = none) :
    (openStore graph c : ExceptT Failure (StateM σ) Store).run.run s = (.error .noGraph, s) := by
  unfold openStore
  rw [h]
  rfl

theorem deliver_run_out {c : Config} {d : Destination} {m : Generated}
    (h : d.path? c m.fileName = none) :
    (deliver c d m : ExceptT Failure (StateM σ) Report).run.run s =
      (.ok { out := m.text }, s) := by
  unfold deliver
  rw [h]
  rfl

theorem deliver_run_file {c : Config} {d : Destination} {m : Generated} {path : String}
    {x : Except FileError Unit} (h : d.path? c m.fileName = some path)
    (hx : (Files.put path m.text : StateM σ _).run s = (x, t)) :
    (deliver c d m : ExceptT Failure (StateM σ) Report).run.run s =
      ((x.mapError .write).map fun _ => {}, t) := by
  unfold deliver
  rw [h]
  cases x <;> exact run_bind_ok (run_lift hx) _

/-- A configuration that cannot be loaded ends the run. -/
theorem run_of_loadConfig_error {i : Invocation} {e : LoadError}
    (h : (loadConfig i.config : StateM σ _).run s = (.error e, t)) :
    (i.run : StateM σ Report).run s = (Report.ofAttempt (.error (.load e)), t) := by
  unfold Invocation.run
  rw [StateT.run_bind, run_bind_ok (run_lift h) _]
  rfl

theorem run_of_loadConfig_ok {i : Invocation} {c : Config} {r : Except Failure Report} {u : σ}
    (hc : (loadConfig i.config : StateM σ _).run s = (.ok c, t))
    (h : (i.request.run c : ExceptT Failure (StateM σ) Report).run.run t = (r, u)) :
    (i.run : StateM σ Report).run s = (Report.ofAttempt r, u) := by
  unfold Invocation.run
  rw [StateT.run_bind, run_bind_ok (run_lift hc) _]
  dsimp only
  rw [h]
  cases r <;> rfl

end Running

section Files
variable {σ : Type} [Files (StateM σ)] (V : FileView σ) {s : σ} {config target : String}
  {graph : Option String} {c : Config} {g : Snapshot} {d : Destination} {i : Invocation}
include V

theorem loadGraph_run (path : String) :
    (loadGraph path : StateM σ _).run s = (Snapshot.ofFile path (Files.textAt s path), s) := by
  unfold loadGraph
  rw [StateT.run_bind, V.readText_run]
  cases Files.textAt s path <;> rfl

theorem loadConfig_run (path : String) :
    (loadConfig path : StateM σ _).run s = (Config.ofFile (Files.textAt s path), s) := by
  unfold loadConfig
  rw [StateT.run_bind, V.readText_run]
  rcases Files.textAt s path with (_ | _) | _ <;> rfl

theorem loadConfig_run_configured {path : String} (h : Configured s path c) :
    (loadConfig path : StateM σ _).run s = (.ok c, s) := by
  rw [loadConfig_run V]
  cases h with
  | absent htext =>
    rw [htext]
    rfl
  | read htext hc =>
    rw [htext, Config.ofFile, hc]
    rfl

theorem openStore_run_loaded (h : Loaded s config graph c g) :
    (openStore graph c : ExceptT Failure (StateM σ) Store).run.run s =
      (.ok (Store.ofSnapshot g), s) := by
  obtain ⟨-, path, text, hpath, htext, hg⟩ := h
  rw [openStore_run hpath (loadGraph_run V path), htext, Snapshot.ofFile, hg]
  rfl

theorem generate_run_rendered {m : Generated} (h : Loaded s config graph c g)
    (hm : generate (some target) g (validate g) = .rendered m) :
    (Request.run c (.generate graph target d) : ExceptT Failure (StateM σ) Report).run.run s =
      (deliver c d m : ExceptT Failure (StateM σ) Report).run.run s := by
  have hgate : (Store.ofSnapshot g).generate (some target) = .rendered m := hm
  rw [Request.run, run_bind_ok (openStore_run_loaded V h), hgate]

theorem generate_run_refused (h : Loaded s config graph c g)
    (hm : (generate (some target) g (validate g)).isRendered = false) :
    (Request.run c (.generate graph target d) : ExceptT Failure (StateM σ) Report).run.run s =
      (.ok { code := 1, err := (generate (some target) g (validate g)).text }, s) := by
  have hgate : (Store.ofSnapshot g).generate (some target) =
    generate (some target) g (validate g) := rfl
  rw [Request.run, run_bind_ok (openStore_run_loaded V h), hgate]
  cases houtcome : generate (some target) g (validate g) with
  | rendered m =>
    rw [houtcome] at hm
    cases hm
  | _ => rfl

/-- Without a manifest a command fails, and leaves all files as they are. -/
theorem run_of_noManifest (hi : i.request = .generate graph target d)
    (h : NoManifest s i.config graph target) :
    ∃ err, (i.run : StateM σ Report).run s = ({ code := 1, err }, s) := by
  -- once there is a configuration, it is to be shown that no graph is had from it
  have hstore : ∀ {c f}, Configured s i.config c →
      (openStore graph c : ExceptT Failure (StateM σ) Store).run.run s = (.error f, s) →
      ∃ err, (i.run : StateM σ Report).run s = ({ code := 1, err }, s) := by
    intro c f hc hopen
    refine ⟨_, run_of_loadConfig_ok (loadConfig_run_configured V hc) (r := .error f) ?_⟩
    rw [hi, Request.run]
    exact run_bind_error hopen _
  cases h with
  | @configFile e htext hne =>
    refine ⟨_, run_of_loadConfig_error (e := .configFile e) ?_⟩
    rw [loadConfig_run V, htext]
    cases e with
    | notFound => exact absurd rfl hne
    | _ => rfl
  | @configDocument text e htext hc =>
    refine ⟨_, run_of_loadConfig_error (e := .configDocument e) ?_⟩
    rw [loadConfig_run V, htext, Config.ofFile, hc]
    rfl
  | noGraph hc hpath => exact hstore hc (openStore_run_noGraph hpath)
  | @graphFile c path e hc hpath htext =>
    refine hstore (f := .load (.graphFile path e)) hc ?_
    rw [openStore_run hpath (loadGraph_run V path), htext]
    rfl
  | @graphDocument c path text e hc hpath htext hg =>
    refine hstore (f := .load (.graphDocument path e)) hc ?_
    rw [openStore_run hpath (loadGraph_run V path), htext, Snapshot.ofFile, hg]
    rfl
  | @refused c g hloaded hrefused =>
    have hconfig := loadConfig_run_configured V hloaded.configured
    have hrequest := generate_run_refused (d := d) V hloaded hrefused
    rw [← hi] at hrequest
    exact ⟨_, run_of_loadConfig_ok hconfig hrequest⟩

/-- A manifest is put out or written, as the destination says. -/
theorem run_of_manifest {m : Generated} (hi : i.request = .generate graph target d)
    (h : Manifest s i.config graph target c m) :
    (d.path? c m.fileName = none →
      (i.run : StateM σ Report).run s = ({ out := m.text }, s)) ∧
    ∀ path, d.path? c m.fileName = some path →
      ∀ x t, (Files.put path m.text : StateM σ _).run s = (x, t) →
        (i.run : StateM σ Report).run s =
          (Report.ofAttempt ((x.mapError .write).map fun _ => {}), t) := by
  obtain ⟨g, hloaded, hm⟩ := h
  have hconfig := loadConfig_run_configured V hloaded.configured
  have hrequest : (i.request.run c : ExceptT Failure (StateM σ) Report).run.run s =
      (deliver c d m : ExceptT Failure (StateM σ) Report).run.run s := by
    rw [hi]
    exact generate_run_rendered V hloaded hm
  constructor
  · intro hpath
    exact run_of_loadConfig_ok hconfig (hrequest.trans (deliver_run_out hpath))
  · intro path hpath x t hput
    exact run_of_loadConfig_ok hconfig (hrequest.trans (deliver_run_file hpath hput))

end Files

/-! ## What is reported -/

section Report
variable {σ : Type} [Files (StateM σ)]

/-- A command failed, put out nothing, and left all files as they were. -/
structure FileView.Fails (V : FileView σ) (s : σ) (report : Report) (t : σ) : Prop where
  code : report.code = 1
  out : report.out = ""
  content : V.content t = V.content s

/--
A command that is to generate a manifest fails if there is none. If there is one, it is put out, or
else written to its file, with no other file new or changed; if that does not succeed, the command
fails.
-/
theorem generate_report (V : FileView σ) (s : σ) {arguments : List String} {i : Invocation}
    {graph : Option String} {target : String} {d : Destination}
    (hline : CommandLine.ofArguments arguments = .ok (.run i))
    (hi : i.request = .generate graph target d) :
    ∃ outer options report t, CommandLine.Options arguments .generate outer options ∧
      i.config = ((options ++ outer).lookup .config).getD defaultConfigPath ∧
      options.lookup .graph = graph ∧ options.lookup .target = some target ∧
      (i.run : StateM σ Report).run s = (report, t) ∧
      (NoManifest s i.config graph target ∨ ∃ c m, Manifest s i.config graph target c m) ∧
      (NoManifest s i.config graph target → V.Fails s report t) ∧
      ∀ c m, Manifest s i.config graph target c m →
        match options.manifestPath? c m.fileName with
        | none => report.code = 0 ∧ report.out = m.text ∧ V.content t = V.content s
        | some path =>
          match ((Files.put path m.text : StateM σ _).run s).1 with
          | .ok () => report.code = 0 ∧ report.out = "" ∧ V.Writes path m.text s t
          | .error _ => V.Fails s report t := by
  obtain ⟨command, outer, options, hoptions, hconfig, hrequest⟩ :=
    CommandLine.exists_options hline
  rw [hi] at hrequest
  obtain ⟨rfl, hgraph, htarget, hd⟩ := Settings.request_eq_generate hrequest
  rcases hrun : (i.run : StateM σ Report).run s with ⟨report, t⟩
  refine ⟨outer, options, report, t, hoptions, hconfig, hgraph, htarget, rfl,
    noManifest_or_manifest s _ _ _, fun h => ?_, fun c m h => ?_⟩
  · obtain ⟨err, hfailed⟩ := run_of_noManifest V hi h
    obtain ⟨rfl, rfl⟩ := Prod.mk.inj (hrun.symm.trans hfailed)
    exact ⟨rfl, rfl, rfl⟩
  · obtain ⟨hout, hfile⟩ := run_of_manifest V hi h
    rw [← Settings.path?_of_destination hd]
    cases hpath : d.path? c m.fileName with
    | none =>
      obtain ⟨rfl, rfl⟩ := Prod.mk.inj (hrun.symm.trans (hout hpath))
      exact ⟨rfl, rfl, rfl⟩
    | some path =>
      obtain ⟨u, hput, hwrites⟩ | ⟨e, u, hput, hcontent⟩ := V.put_cases path m.text s
      · obtain ⟨rfl, rfl⟩ := Prod.mk.inj (hrun.symm.trans (hfile path hpath _ u hput))
        dsimp only
        rw [hput]
        exact ⟨rfl, rfl, hwrites⟩
      · obtain ⟨rfl, rfl⟩ := Prod.mk.inj (hrun.symm.trans (hfile path hpath _ u hput))
        dsimp only
        rw [hput]
        exact ⟨rfl, rfl, hcontent⟩

end Report

/-- A pod group on its own, as a document. -/
def soloFile : String :=
  "nodes:\n- id: db\n  kind: podGroup\n  name: db\n  namespace: shop\n  labels:\n    app: db\n"

/-- The graph of the document. -/
def solo : Snapshot :=
  ⟨[⟨"db", none, .podGroup { name := "db", ns := "shop", labels := .singleton "app" "db" }⟩], []⟩

/-- The document is all there is, without a configuration. -/
def soloTree : FileTree := ⟨[(["g"], .file soloFile.toUTF8)]⟩

def soloLine : List String :=
  ["-c", "c", "generate", "--graph", "g", "--target", "db", "--out", "m"]

def soloRun : Invocation where
  config := "c"
  request := .generate (some "g") "db" (.file "m")

/-- The manifest is written where the command line says. -/
theorem generate_report_solo :
    CommandLine.ofArguments soloLine = .ok (.run soloRun) ∧
    soloRun.request = .generate (some "g") "db" (.file "m") ∧
    ∃ m report t, Manifest soloTree "c" (some "g") "db" {} m ∧
      (soloRun.run : StateM FileTree Report).run soloTree = (report, t) ∧
      report.code = 0 ∧ report.out = "" ∧ FileTree.view.Writes "m" m.text soloTree t := by
  have hline : CommandLine.ofArguments soloLine = .ok (.run soloRun) := by decide +kernel
  refine ⟨hline, rfl, ?_⟩
  obtain ⟨outer, options, report, t, hoptions, -, -, -, hrun, -, -, hmanifest⟩ :=
    generate_report FileTree.view soloTree hline rfl
  have hgiven : CommandLine.Options soloLine .generate [(.config, "c")]
      [(.graph, "g"), (.target, "db"), (.out, "m")] := ⟨soloLine.drop 3, by rfl, by rfl⟩
  obtain ⟨rfl, rfl⟩ := hgiven.unique hoptions
  have hconfig : Files.textAt soloTree "c" = .error .notFound := by cbv
  have hfile : ((Files.readBytes "g" : StateM FileTree _).run soloTree).1 =
      .ok soloFile.toUTF8 := by cbv
  have hgraph : Snapshot.ofYaml soloFile = .ok solo := by decide +kernel
  have hgate : (generate (some "db") solo (validate solo)).isRendered = true := by decide +kernel
  have hput : ∀ text, ((Files.put "m" text : StateM FileTree _).run soloTree).1 = .ok () := by
    intro text
    cbv
  obtain ⟨m, hm⟩ := Outcome.exists_rendered hgate
  have hloaded : Manifest soloTree "c" (some "g") "db" {} m :=
    ⟨solo, ⟨.absent hconfig, "g", soloFile, rfl, Files.textAt_of_readBytes hfile, hgraph⟩, hm⟩
  have hreport := hmanifest {} m hloaded
  have hpath : Settings.manifestPath? [(.graph, "g"), (.target, "db"), (.out, "m")] {}
    m.fileName = some "m" := rfl
  rw [hpath] at hreport
  dsimp only at hreport
  rw [hput] at hreport
  exact ⟨m, report, t, hloaded, hrun, hreport⟩

end NetGraph
