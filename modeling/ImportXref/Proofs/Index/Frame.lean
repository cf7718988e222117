import ImportXref.Proofs.Index.Files

/-!
# Index — what an operation touches, and what a refusal leaves

An operation is about one module at most, its *target*.  Refused or not, it only adds at the end of
the lists of its target.  A refused operation has done everything that precedes the offending
reference, and nothing of that reference or of what follows it.

* `RefMap.Grows`, `Index.Frame`: a map, and an index, that differ in one key at most, whose list is
  longer at its end.
* `frame_run`: the frame of a run, by one case for each action and an induction on the run.
* `Stopped`: what precedes the offending reference, by one rule for each place of the fault.
* `stopped_iff`: an operation is refused exactly where it is stopped, and leaves what precedes.
* `Operation.frame_and_valid_prefix`: all of it, for every operation on every index.
-/

namespace ImportXref

/-! ### Maps and indexes that grow at one key -/

/-- `m'` is `m` but for the key `key?`, whose list may be there for the first time or be longer
at its end. -/
structure RefMap.Grows (key? : Option Text) (m m' : RefMap) : Prop where
  others : ∀ k, key? ≠ some k → m'.find? k = m.find? k
  kept : ∀ k old, m.find? k = some old → ∃ new, m'.find? k = some new ∧ old <+: new

namespace RefMap

variable {key? : Option Text} {m m' m'' : RefMap}

theorem Grows.refl (key? : Option Text) (m : RefMap) : Grows key? m m :=
  ⟨fun _ _ => rfl, fun _ old h => ⟨old, h, List.prefix_refl old⟩⟩

theorem Grows.trans (h : Grows key? m m') (h' : Grows key? m' m'') : Grows key? m m'' where
  others k hk := (h'.others k hk).trans (h.others k hk)
  kept k old hold := by
    obtain ⟨mid, hmid, hpre⟩ := h.kept k old hold
    obtain ⟨new, hnew, hpre'⟩ := h'.kept k mid hmid
    exact ⟨new, hnew, hpre.trans hpre'⟩

theorem grows_extend (m : RefMap) (k : Text) (refs : List Text) :
    Grows (some k) m (m.extend k refs) where
  others j hj := by rw [find?_extend, if_neg fun h => hj (congrArg some h.symm)]
  kept j old hold := by
    rw [find?_extend]
    by_cases h : j = k
    · subst h
      exact ⟨old ++ refs, by rw [if_pos rfl, list, hold]; rfl, List.prefix_append old refs⟩
    · exact ⟨old, by rw [if_neg h, hold], List.prefix_refl old⟩

end RefMap

/-- `y` has the modules of `x`, and both of its maps differ from those of `x` at most in the list
of `target?`, which is longer at its end. -/
structure Index.Frame (x : Index) (target? : Option Text) (y : Index) : Prop where
  modules : y.modules = x.modules
  all : RefMap.Grows target? x.all y.all
  inProject : RefMap.Grows target? x.inProject y.inProject

namespace Index

variable {target? : Option Text}

theorem Frame.refl (x : Index) (target? : Option Text) : x.Frame target? x :=
  ⟨rfl, .refl .., .refl ..⟩

theorem Frame.trans {x y z : Index} (h : x.Frame target? y) (h' : y.Frame target? z) :
    x.Frame target? z :=
  ⟨h'.modules.trans h.modules, h.all.trans h'.all, h.inProject.trans h'.inProject⟩

/-- To give a module its lists touches no other one. -/
theorem frame_addTarget (x : Index) (t : Text) : x.Frame (some t) (x.addTarget t) := by
  refine ⟨rfl, x.all.grows_extend t [], ?_⟩
  unfold addTarget
  split
  · exact x.inProject.grows_extend t []
  · exact .refl ..

/-- A reference touches the lists of its target only. -/
theorem frame_record (x : Index) (r : Reference) : x.Frame (some r.target) (x.record r) := by
  refine ⟨rfl, x.all.grows_extend r.target _, ?_⟩
  unfold record
  split
  · exact x.inProject.grows_extend r.target _
  · exact .refl ..

/-- An action grows the lists of the module it touches. -/
theorem frame_apply (x : Index) {a : Action} (h : ∀ t, a.touched? = some t → target? = some t) :
    x.Frame target? (a.apply x) := by
  cases a with
  | note | refuse => exact .refl ..
  | target t => rw [h t rfl]; exact x.frame_addTarget t
  | reference r => rw [h r.target rfl]; exact x.frame_record r

/-- A run whose actions touch no module but `target?` grows the lists of that module. -/
theorem frame_run (x : Index) {plan : List Action}
    (h : ∀ a ∈ plan, ∀ t, a.touched? = some t → target? = some t) :
    x.Frame target? (x.run plan).index := by
  induction plan generalizing x with
  | nil => exact .refl ..
  | cons a plan ih =>
      obtain ⟨ha, hplan⟩ := List.forall_mem_cons.mp h
      simp only [run]
      cases a.refusal? with
      | some e => exact .refl ..
      | none => exact (x.frame_apply ha).trans (ih _ hplan)

end Index

/-! ### The target of an operation -/

/-- The module that an operation is about; none if it is about a file without a module name. -/
def Operation.target? : Operation → Option Text
  | addTarget module => some module
  | addReference r => some r.target
  | addSelective target _ _ | addDirect target _ => some target
  | readLine filename _ | readLineWith _ filename _ | readFile filename _ =>
    (moduleName filename).toOption

namespace Plan

variable {t target : Text} {a : Action}

/-- The references of a selective import belong to its target. -/
theorem touched?_of_mem_selective {source objects : Text}
    (ha : a ∈ selective target source objects) (ht : a.touched? = some t) : target = t := by
  unfold selective at ha
  split at ha
  · rw [List.mem_singleton.mp ha] at ht
    cases ht
  · rcases List.mem_cons.mp ha with rfl | ha
    · exact Option.some.inj ht
    · obtain ⟨w, -, rfl⟩ := List.mem_map.mp ha
      exact Option.some.inj ht

theorem touched?_of_mem_direct {sources : List Text} (ha : a ∈ direct target sources)
    (ht : a.touched? = some t) : target = t := by
  rcases List.mem_cons.mp ha with rfl | ha
  · exact Option.some.inj ht
  · obtain ⟨s, -, rfl⟩ := List.mem_map.mp ha
    unfold directSource at ht
    split at ht
    · cases ht
    · exact Option.some.inj ht

/-- The references of a line belong to the module of its file, however it is classified. -/
theorem touched?_of_mem_lineWith {classify : Text → Statement} {filename line : Text}
    (ha : a ∈ lineWith classify filename line) (ht : a.touched? = some t) :
    moduleName filename = .ok t := by
  rcases List.mem_cons.mp ha with rfl | ha
  · cases ht
  · split at ha
    · rw [List.mem_singleton.mp ha] at ht
      cases ht
    · next m hm =>
      rw [hm]
      refine congrArg _ ?_
      unfold statement at ha
      split at ha
      · exact touched?_of_mem_selective ha ht
      · exact touched?_of_mem_direct ha ht
      · cases ha

/-- The references of a file belong to its module. -/
theorem touched?_of_mem_file {filename text : Text} (ha : a ∈ file filename text)
    (ht : a.touched? = some t) : moduleName filename = .ok t := by
  obtain ⟨before, after, h⟩ := file_eq_notes filename text
  have hnote (events : List Event) (hm : a ∈ events.map Action.note) : False := by
    obtain ⟨event, -, rfl⟩ := List.mem_map.mp hm
    cases ht
  rw [h] at ha
  rcases List.mem_append.mp ha with ha | ha
  · exact (hnote before ha).elim
  · rcases List.mem_append.mp ha with ha | ha
    · obtain ⟨l, -, hl⟩ := List.mem_flatMap.mp ha
      exact touched?_of_mem_lineWith hl ht
    · exact (hnote after ha).elim

end Plan

/-- The actions of an operation touch its target only. -/
theorem Operation.touched?_of_mem_plan (op : Operation) {a : Action} (ha : a ∈ op.plan) {t : Text}
    (ht : a.touched? = some t) : op.target? = some t := by
  have named {filename : Text} (hm : moduleName filename = .ok t) :
      (moduleName filename).toOption = some t := by rw [hm]; rfl
  cases op with
  | addTarget m => rw [List.mem_singleton.mp ha] at ht; exact ht
  | addReference r => rw [List.mem_singleton.mp ha] at ht; exact ht
  | addSelective target source objects => exact congrArg some (Plan.touched?_of_mem_selective ha ht)
  | addDirect target sources => exact congrArg some (Plan.touched?_of_mem_direct ha ht)
  | readLine filename line => exact named (Plan.touched?_of_mem_lineWith ha ht)
  | readLineWith classify filename line => exact named (Plan.touched?_of_mem_lineWith ha ht)
  | readFile filename text => exact named (Plan.touched?_of_mem_file ha ht)

/-! ### What precedes an offending reference -/

/-- The index after operations carried out one after the other. -/
def Index.after (x : Index) (ops : List Operation) : Index :=
  ops.foldl (fun x op => (x.run op.plan).index) x

/-- Why an operation is refused, whatever the index. -/
def Operation.refusal? (op : Operation) : Option RecordError :=
  Plan.refusal? op.plan

/-- `Stopped x op e y`: carried out on `x`, the operation `op` comes to an offending reference,
refused because of `e`, and `y` is `x` after all that precedes that reference, which is accepted. -/
inductive Stopped : Index → Operation → RecordError → Index → Prop where
  /-- A single reference has nothing before it. -/
  | reference {x : Index} {r : Reference} {e : RecordError} (hr : r.refusal? = some e) :
    Stopped x (.addReference r) e x
  /-- The source of a clause is resolved before anything else is done. -/
  | source {x : Index} {target source objects : Text} {e : RecordError}
    (hsource : resolve target source = .error e) :
    Stopped x (.addSelective target source objects) e x
  /-- A name of a clause comes after the lists of the target and the names before it. -/
  | name {x : Index} {target source objects package w : Text} {earlier later : List Text}
    {e : RecordError} (hsource : resolve target source = .ok package)
    (hnames : Clause.names objects = earlier ++ w :: later)
    (hearlier : ∀ v ∈ earlier, Reference.refusal? ⟨target, package, some v⟩ = none)
    (hw : Reference.refusal? ⟨target, package, some w⟩ = some e) :
    Stopped x (.addSelective target source objects) e
      (x.after (.addTarget target ::
        earlier.map fun v => .addReference ⟨target, package, some v⟩))
  /-- An imported module comes after the lists of the target and the modules before it. -/
  | module {x : Index} {target s : Text} {earlier later : List Text} {e : RecordError}
    (hearlier : (Operation.addDirect target earlier).refusal? = none)
    (hs : resolve target s = .error e ∨
      ∃ package, resolve target s = .ok package ∧
        Reference.refusal? ⟨target, package, none⟩ = some e) :
    Stopped x (.addDirect target (earlier ++ s :: later)) e (x.after [.addDirect target earlier])
  /-- The file of a line is named before anything else is done. -/
  | filename {x : Index} {classify : Text → Statement} {filename line : Text} {e : RecordError}
    (hname : moduleName filename = .error e) :
    Stopped x (.readLineWith classify filename line) e x
  /-- A line stops where its clause does. -/
  | selective {x y : Index} {classify : Text → Statement} {filename line m source objects : Text}
    {e : RecordError} (hname : moduleName filename = .ok m)
    (hline : classify line = .selective source objects)
    (h : Stopped x (.addSelective m source objects) e y) :
    Stopped x (.readLineWith classify filename line) e y
  /-- A line stops where its imported modules do. -/
  | direct {x y : Index} {classify : Text → Statement} {filename line m : Text}
    {sources : List Text} {e : RecordError} (hname : moduleName filename = .ok m)
    (hline : classify line = .direct sources) (h : Stopped x (.addDirect m sources) e y) :
    Stopped x (.readLineWith classify filename line) e y
  /-- A line without another way to classify it. -/
  | line {x y : Index} {filename line : Text} {e : RecordError}
    (h : Stopped x (.readLineWith Statement.ofLine filename line) e y) :
    Stopped x (.readLine filename line) e y
  /-- A file stops where the first of its lines does that is refused. -/
  | file {x y : Index} {filename text l : Text} {earlier later : List Text} {e : RecordError}
    (hlines : Statement.importLines text = earlier ++ l :: later)
    (hearlier : ∀ k ∈ earlier, (Operation.readLine filename k).refusal? = none)
    (h : Stopped (x.after (earlier.map (.readLine filename))) (.readLine filename l) e y) :
    Stopped x (.readFile filename text) e y

/-- Accepted operations one after the other are accepted. -/
theorem refusal?_flatMap_plan {ops : List Operation} (h : ∀ op ∈ ops, op.refusal? = none) :
    Plan.refusal? (ops.flatMap Operation.plan) = none := by
  rw [Plan.refusal?_flatMap]
  exact List.findSome?_eq_none_iff.mpr h

namespace Index

/-- Accepted operations one after the other are one run. -/
theorem after_eq_run (x : Index) {ops : List Operation} (h : ∀ op ∈ ops, op.refusal? = none) :
    x.after ops = (x.run (ops.flatMap Operation.plan)).index := by
  induction ops generalizing x with
  | nil => rfl
  | cons op ops ih =>
      obtain ⟨hop, hops⟩ := List.forall_mem_cons.mp h
      rw [List.flatMap_cons, x.index_run_append hop]
      exact ih _ hops

/-- `m` has its lists: one among all, and one inside the project if it is a module of it. -/
def HasLists (y : Index) (m : Text) : Prop :=
  m ∈ y.all.keys ∧ (y.isModule m = true → m ∈ y.inProject.keys)

/-- A run that begins with the lists of `m` ends with them. -/
theorem hasLists_run (x : Index) (m : Text) (plan : List Action) :
    (x.run (.target m :: plan)).index.HasLists m := by
  have htouched : some m ∈ (Plan.carriedOut (.target m :: plan)).map Action.touched? :=
    List.mem_map.mpr ⟨.target m, List.mem_cons_self .., rfl⟩
  rw [index_run]
  refine ⟨(mem_keys_all_foldl ..).mpr (.inr htouched), fun hm => ?_⟩
  rw [isModule, moduleList, modules_foldl] at hm
  exact (mem_keys_inProject_foldl ..).mpr (.inr ⟨htouched, hm⟩)

end Index

/-! ### Refused operations -/

section

variable {x y : Index} {op : Operation} {e : RecordError}

/-- A reference is refused for a separator in its source or for its symbol. -/
theorem Reference.refusal?_eq_some {r : Reference} (h : r.refusal? = some e) :
    e = .separatorInSource r.source ∨ ∃ w, r.symbol = some w ∧ e = .malformedSymbol w := by
  obtain ⟨target, source, symbol⟩ := r
  unfold Reference.refusal? at h
  split at h
  · exact .inl (Option.some.inj h).symm
  · cases symbol with
    | none => cases h
    | some w =>
        simp only at h
        split at h
        · cases h
        · exact .inr ⟨w, rfl, (Option.some.inj h).symm⟩

/-- A relative source cannot be resolved only if it has too many dots. -/
theorem depthExceeded_of_resolve {m s : Text} (h : resolve m s = .error e) :
    e = .depthExceeded s m (leadingDots s) := by
  simp only [resolve, absoluteName] at h
  split at h
  · cases h
  · split at h
    · cases h; rfl
    · cases h

theorem refusal?_addReference (r : Reference) :
    (Operation.addReference r).refusal? = r.refusal? := by
  rw [Operation.refusal?, Operation.plan, Plan.refusal?, List.findSome?_cons]
  cases h : r.refusal? <;> simp [Action.refusal?, h]

/-- The actions of a clause whose source is resolved. -/
theorem plan_selective {target source objects package : Text}
    (hs : resolve target source = .ok package) :
    Plan.selective target source objects =
      (Operation.addTarget target :: (Clause.names objects).map fun w =>
        .addReference ⟨target, package, some w⟩).flatMap Operation.plan := by
  rw [Plan.selective, hs, List.flatMap_cons, List.flatMap_map]
  simp [Operation.plan, ← List.map_eq_flatMap]

/-- The action of an imported module is refused if it is not resolved or not recorded. -/
theorem refusal?_directSource (target s : Text) :
    (Plan.directSource target s).refusal? = some e ↔
      resolve target s = .error e ∨ ∃ package, resolve target s = .ok package ∧
        Reference.refusal? ⟨target, package, none⟩ = some e := by
  rw [Plan.directSource, ← resolve]
  cases resolve target s with
  | error e' => simp [Action.refusal?]
  | ok package => simp [Action.refusal?]

/-- The plan of a line in a file that has a module name. -/
theorem plan_lineWith {classify : Text → Statement} {filename line m : Text}
    (hm : moduleName filename = .ok m) :
    Plan.lineWith classify filename line =
      [Event.parsing line filename].map .note ++ Plan.statement m (classify line) := by
  rw [Plan.lineWith, hm]
  rfl

/-- **A stopped operation** is refused, and leaves what precedes its offending reference. -/
theorem Stopped.refused (h : Stopped x op e y) :
    op.refusal? = some e ∧ (x.run op.plan).index = y := by
  induction h with
  | reference hr =>
      refine ⟨(refusal?_addReference _).trans hr, ?_⟩
      rw [Operation.plan, Index.run, Action.refusal?, hr]
  | source hs =>
      rw [Operation.refusal?, Operation.plan, Plan.selective, hs]
      exact ⟨rfl, rfl⟩
  | @name x target source objects package w earlier later e hs hnames hearlier hw =>
      let names (ws : List Text) : List Operation :=
        ws.map fun v => .addReference ⟨target, package, some v⟩
      have hdone : ∀ op ∈ Operation.addTarget target :: names earlier, op.refusal? = none := by
        refine List.forall_mem_cons.mpr ⟨rfl, fun op hop => ?_⟩
        obtain ⟨v, hv, rfl⟩ := List.mem_map.mp hop
        exact (refusal?_addReference _).trans (hearlier v hv)
      have haccepted := refusal?_flatMap_plan hdone
      -- the clause is what precedes the name, the name and what follows it
      have hplan : Plan.selective target source objects =
          (Operation.addTarget target :: names earlier).flatMap Operation.plan ++
            .reference ⟨target, package, some w⟩ ::
              (names later).flatMap Operation.plan := by
        rw [plan_selective hs, hnames, List.map_append, ← List.cons_append, List.flatMap_append]
        rfl
      have hrefused : (Action.reference ⟨target, package, some w⟩).refusal? = some e := hw
      rw [Operation.refusal?, Operation.plan, hplan]
      refine ⟨Plan.refusal?_of_refused haccepted hrefused, ?_⟩
      rw [Index.index_run_of_refused _ haccepted hrefused, Index.after_eq_run _ hdone]
  | @module x target s earlier later e hearlier hs =>
      have hplan : Plan.direct target (earlier ++ s :: later) =
          Plan.direct target earlier ++
            Plan.directSource target s :: later.map (Plan.directSource target) := by
        rw [Plan.direct, List.map_append]
        rfl
      have hrefused := (refusal?_directSource target s).mpr hs
      rw [Operation.refusal?, Operation.plan] at hearlier
      rw [Operation.refusal?, Operation.plan, hplan]
      exact ⟨Plan.refusal?_of_refused hearlier hrefused,
        Index.index_run_of_refused _ hearlier hrefused⟩
  | filename hm =>
      rw [Operation.refusal?, Operation.plan, Plan.lineWith, hm]
      exact ⟨rfl, rfl⟩
  | selective hm hline _ ih | direct hm hline _ ih =>
      rw [Operation.refusal?, Operation.plan, plan_lineWith hm, Plan.refusal?_notes,
        Index.index_run_notes, hline]
      exact ih
  | line _ ih => exact ih
  | @file x y filename text l earlier later e hlines hearlier _ ih =>
      obtain ⟨hrefused, rfl⟩ := ih
      have hdone : ∀ op ∈ earlier.map (Operation.readLine filename), op.refusal? = none := by
        intro op hop
        obtain ⟨k, hk, rfl⟩ := List.mem_map.mp hop
        exact hearlier k hk
      have hactions : (earlier.map (Operation.readLine filename)).flatMap Operation.plan =
          earlier.flatMap (Plan.line filename) := List.flatMap_map ..
      have haccepted := refusal?_flatMap_plan hdone
      rw [hactions] at haccepted
      refine ⟨?_, ?_⟩
      · rw [Operation.refusal?, Operation.plan, Plan.refusal?_file]
        exact List.findSome?_eq_some_iff.mpr ⟨earlier, l, later, hlines, hrefused, hearlier⟩
      · have hl : Plan.refusal? (Plan.line filename l) = some e := hrefused
        show (x.run (Plan.file filename text)).index = _
        rw [Index.index_run_file, Plan.importLines, hlines, List.flatMap_append,
          List.flatMap_cons, Index.index_run_append _ haccepted, Index.after_eq_run _ hdone,
          hactions, Index.run_append, Index.Run.andThen, Index.refusal?_run, hl]
        rfl

/-- A refused selective import is stopped somewhere. -/
theorem exists_stopped_selective {target source objects : Text}
    (h : (Operation.addSelective target source objects).refusal? = some e) :
    ∃ y, Stopped x (.addSelective target source objects) e y := by
  rw [Operation.refusal?, Operation.plan] at h
  cases hs : resolve target source with
  | error e' =>
      rw [Plan.selective, hs] at h
      obtain rfl : e' = e := Option.some.inj h
      exact ⟨x, .source hs⟩
  | ok package =>
      rw [plan_selective hs, Plan.refusal?_flatMap, List.findSome?_cons, List.findSome?_map] at h
      obtain ⟨earlier, w, later, hnames, hw, hearlier⟩ := List.findSome?_eq_some_iff.mp h
      exact ⟨_, .name hs hnames (fun v hv => (refusal?_addReference _).symm.trans (hearlier v hv))
        ((refusal?_addReference _).symm.trans hw)⟩

theorem exists_stopped_direct {target : Text} {sources : List Text}
    (h : (Operation.addDirect target sources).refusal? = some e) :
    ∃ y, Stopped x (.addDirect target sources) e y := by
  rw [Operation.refusal?, Operation.plan, Plan.direct, Plan.refusal?, List.findSome?_cons,
    List.findSome?_map] at h
  obtain ⟨earlier, s, later, rfl, hs, hearlier⟩ := List.findSome?_eq_some_iff.mp h
  refine ⟨_, .module ?_ ((refusal?_directSource target s).mp hs)⟩
  rw [Operation.refusal?, Operation.plan, Plan.direct, Plan.refusal?, List.findSome?_cons,
    List.findSome?_map]
  exact List.findSome?_eq_none_iff.mpr hearlier

/-- A refused line is stopped somewhere. -/
theorem exists_stopped_lineWith {classify : Text → Statement} {filename line : Text}
    (h : (Operation.readLineWith classify filename line).refusal? = some e) :
    ∃ y, Stopped x (.readLineWith classify filename line) e y := by
  rw [Operation.refusal?, Operation.plan] at h
  cases hm : moduleName filename with
  | error e' =>
      rw [Plan.lineWith, hm] at h
      obtain rfl : e' = e := Option.some.inj h
      exact ⟨x, .filename hm⟩
  | ok m =>
      rw [plan_lineWith hm, Plan.refusal?_notes] at h
      cases hc : classify line with
      | other => rw [hc] at h; cases h
      | selective source objects =>
          rw [hc] at h
          obtain ⟨y, hy⟩ := exists_stopped_selective h
          exact ⟨y, .selective hm hc hy⟩
      | direct sources =>
          rw [hc] at h
          obtain ⟨y, hy⟩ := exists_stopped_direct h
          exact ⟨y, .direct hm hc hy⟩

/-- A refused file is stopped at one of its lines. -/
theorem exists_stopped_file {filename text : Text}
    (h : (Operation.readFile filename text).refusal? = some e) :
    ∃ y, Stopped x (.readFile filename text) e y := by
  rw [Operation.refusal?, Operation.plan, Plan.refusal?_file] at h
  obtain ⟨earlier, l, later, hlines, hl, hearlier⟩ := List.findSome?_eq_some_iff.mp h
  obtain ⟨y, hy⟩ := exists_stopped_lineWith hl
  exact ⟨y, .file hlines hearlier (.line hy)⟩

/-- A refused operation is stopped somewhere. -/
theorem exists_stopped (h : op.refusal? = some e) : ∃ y, Stopped x op e y := by
  cases op with
  | addTarget m => cases h
  | addReference r => exact ⟨x, .reference ((refusal?_addReference r).symm.trans h)⟩
  | addSelective target source objects => exact exists_stopped_selective h
  | addDirect target sources => exact exists_stopped_direct h
  | readLine filename line =>
      obtain ⟨y, hy⟩ := exists_stopped_lineWith h
      exact ⟨y, .line hy⟩
  | readLineWith classify filename line => exact exists_stopped_lineWith h
  | readFile filename text => exact exists_stopped_file h

/-- **Valid prefix.**  An operation is refused exactly where it is stopped, and leaves exactly what
precedes its offending reference. -/
theorem stopped_iff :
    Stopped x op e y ↔ (x.run op.plan).refusal? = some e ∧ (x.run op.plan).index = y := by
  rw [Index.refusal?_run]
  refine ⟨Stopped.refused, ?_⟩
  rintro ⟨h, rfl⟩
  obtain ⟨y, hy⟩ := exists_stopped (x := x) h
  rwa [hy.refused.2]

/-! ### What is left at least -/

/-- What is left of a refused operation, at least, by the cause of the refusal: the index as it
was, or the lists of the target. -/
def Operation.Leaves (x y : Index) : Operation → RecordError → Prop
  | addTarget _, _ => False
  | addReference _, _ => y = x
  | addSelective _ _ _, .depthExceeded .. => y = x
  | addSelective target _ _, _ | addDirect target _, _ => y.HasLists target
  | readLine _ _, .missingExtension _ | readLineWith _ _ _, .missingExtension _
  | readFile _ _, .missingExtension _ => y = x
  -- any other refusal of a line is one of its statement
  | readLine _ _, _ | readLineWith _ _ _, _ | readFile _ _, _ => True

/-- The refusals of a statement do not concern the name of a file. -/
theorem refusal?_statement_ne (m : Text) (st : Statement) (filename : Text) :
    Plan.refusal? (Plan.statement m st) ≠ some (.missingExtension filename) := by
  have hreference {r : Reference} (hr : r.refusal? = some (.missingExtension filename)) :
      False := by
    rcases Reference.refusal?_eq_some hr with he | ⟨w, -, he⟩ <;> cases he
  have hresolve {s : Text} (hs : resolve m s = .error (.missingExtension filename)) : False := by
    cases depthExceeded_of_resolve hs
  intro h
  cases st with
  | other => cases h
  | selective source objects =>
      obtain ⟨y, hy⟩ := exists_stopped_selective (x := .fresh none) h
      cases hy with
      | source hs => exact hresolve hs
      | name _ _ _ hw => exact hreference hw
  | direct sources =>
      obtain ⟨y, hy⟩ := exists_stopped_direct (x := .fresh none) h
      cases hy with
      | module _ hs =>
          rcases hs with hs | ⟨package, -, hs⟩
          · exact hresolve hs
          · exact hreference hs

theorem leaves_of_selective {target source objects : Text}
    (h : (Operation.addSelective target source objects).refusal? = some e) :
    (Operation.addSelective target source objects).Leaves x
      (x.run (Plan.selective target source objects)).index e := by
  obtain ⟨y, hy⟩ := exists_stopped_selective (x := x) h
  have hindex := hy.refused.2
  cases hy with
  | source hs =>
      rw [depthExceeded_of_resolve hs]
      exact hindex
  | name hs _ _ hw =>
      have hlists : (x.run (Plan.selective target source objects)).index.HasLists target := by
        rw [Plan.selective, hs]
        exact x.hasLists_run target _
      rcases Reference.refusal?_eq_some hw with rfl | ⟨w', -, rfl⟩
      · exact hlists
      · exact hlists

/-- A line is refused for the name of its file only where the file has no module name. -/
theorem exists_moduleName_eq_error {classify : Text → Statement} {filename line f : Text}
    (h : Plan.refusal? (Plan.lineWith classify filename line) = some (.missingExtension f)) :
    ∃ e, moduleName filename = .error e := by
  cases hm : moduleName filename with
  | error e => exact ⟨e, rfl⟩
  | ok m =>
      rw [plan_lineWith hm, Plan.refusal?_notes] at h
      exact absurd h (refusal?_statement_ne m (classify line) f)

/-- So is a file. -/
theorem exists_moduleName_eq_error_of_file {filename text f : Text}
    (h : Plan.refusal? (Plan.file filename text) = some (.missingExtension f)) :
    ∃ e, moduleName filename = .error e := by
  rw [Plan.refusal?_file] at h
  obtain ⟨l, -, hl⟩ := List.exists_of_findSome?_eq_some h
  exact exists_moduleName_eq_error hl

/-- A line of a file that has no name of a module leaves the index as it is. -/
theorem index_run_of_missingExtension {classify : Text → Statement} {filename line f : Text}
    (h : Plan.refusal? (Plan.lineWith classify filename line) = some (.missingExtension f)) :
    (x.run (Plan.lineWith classify filename line)).index = x := by
  obtain ⟨e, he⟩ := exists_moduleName_eq_error h
  rw [Plan.lineWith, he]
  rfl

/-- In a file without a module name the first import line is refused. -/
theorem index_run_file_of_missingExtension {filename text f : Text}
    (h : Plan.refusal? (Plan.file filename text) = some (.missingExtension f)) :
    (x.run (Plan.file filename text)).index = x := by
  obtain ⟨e, he⟩ := exists_moduleName_eq_error_of_file h
  rw [x.index_run_file, Plan.importLines]
  cases Statement.importLines text with
  | nil => rfl
  | cons k ks =>
      rw [List.flatMap_cons, Plan.line, Plan.lineWith, he]
      rfl

theorem Operation.leaves_of_refused (op : Operation) (h : op.refusal? = some e) :
    op.Leaves x (x.run op.plan).index e := by
  cases op with
  | addTarget m => cases h
  | addReference r =>
      exact (Stopped.reference ((refusal?_addReference r).symm.trans h)).refused.2
  | addSelective target source objects => exact leaves_of_selective h
  | addDirect target sources => exact x.hasLists_run target _
  | readLine filename line =>
      cases e with
      | missingExtension f => exact index_run_of_missingExtension h
      | _ => trivial
  | readLineWith classify filename line =>
      cases e with
      | missingExtension f => exact index_run_of_missingExtension h
      | _ => trivial
  | readFile filename text =>
      cases e with
      | missingExtension f => exact index_run_file_of_missingExtension h
      | _ => trivial

/-- **Only appending, one module, a valid prefix.**  Whatever an operation does to an index, refused
or not, the modules stay, no key but its target is added, removed or changed in either map, and
the old lists of the target are the front of its new ones.  If it is refused, it stops at its
offending reference and leaves exactly what precedes that: the index as it was for a single
reference, for a clause whose source leaves the top-level package and for a file without a module
name; and at least the lists of the target for any other clause and for imported modules. -/
theorem Operation.frame_and_valid_prefix (op : Operation) (x : Index) :
    x.Frame op.target? (x.run op.plan).index ∧
      ∀ e, (x.run op.plan).refusal? = some e →
        Stopped x op e (x.run op.plan).index ∧ op.Leaves x (x.run op.plan).index e := by
  refine ⟨x.frame_run fun a ha t ht => op.touched?_of_mem_plan ha ht, fun e he => ?_⟩
  have hrefused : op.refusal? = some e := by rwa [Index.refusal?_run] at he
  exact ⟨stopped_iff.mpr ⟨he, rfl⟩, op.leaves_of_refused hrefused⟩

end

end ImportXref
