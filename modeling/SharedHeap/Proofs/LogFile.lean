import SharedHeap.Proofs.Reports
import SharedHeap.Proofs.Starts
import Mathlib.Data.List.TakeDrop

/-! # What reaches the log file

A pass is reported when it is complete, and an object when it is registered. Whether the report is
written depends on the filter, and the one that is used unless the environment has another lets through
only what comes from targets of the library. The collector reports under a target of its own, so of all
that happens only timed operations are written. What filters let through, and that opened files are
there, is assumed of the facilities of the logger, and it is so for those that programs run with. -/

namespace SharedHeap

open Heap Program Logging

/-! ## What runs report -/

namespace Event

/-- The event says that a pass is complete. -/
def isCompletion : Event → Bool
  | passComplete _ _ => true
  | _ => false

/-- The event says that an object is registered. -/
def isRegistration : Event → Bool
  | objectRegistered _ => true
  | _ => false

/-- No pass is complete and no object is registered by these events. -/
def Quiet (es : List Event) : Prop :=
  ∀ e ∈ es, e.isCompletion = false ∧ e.isRegistration = false

end Event

namespace Action

/-- What is to be reported of the pass that an action completes. -/
def completion? (w : Heap) : Action → Option Event
  | close q => ((w.queue? q).bind (·.counts?)).map fun pass =>
    .passComplete pass.2.swept pass.2.reachable
  | _ => none

/-- What is to be reported of the object that an action registers. -/
def registration? (w : Heap) : Action → Option Event
  | register g x => if (w.register g x).1.isAccepted then some (.objectRegistered x.handle) else none
  | _ => none

end Action

namespace Heap

variable {w u v : Heap} {a : Action} {as : List Action} {g : CollectorId} {new : List Event}

/-- From `w` to `v` the events in `new` are reported, the latest first, and among them these ends of
passes and these registrations. -/
structure Adds (w v : Heap) (new completions registrations : List Event) : Prop where
  events : v.events = new ++ w.events
  completions : new.filter (·.isCompletion) = completions
  registrations : new.filter (·.isRegistration) = registrations

theorem Adds.of_quiet (hv : v.events = new ++ w.events) (hnew : Event.Quiet new) :
    w.Adds v new [] [] :=
  ⟨hv, List.filter_eq_nil_iff.mpr fun e he => by simp [(hnew e he).1],
    List.filter_eq_nil_iff.mpr fun e he => by simp [(hnew e he).2]⟩

theorem Adds.trans {new' cs rs cs' rs' : List Event} (h : w.Adds u new cs rs)
    (h' : u.Adds v new' cs' rs') : w.Adds v (new' ++ new) (cs' ++ cs) (rs' ++ rs) where
  events := by rw [h'.events, h.events, List.append_assoc]
  completions := by rw [List.filter_append, h'.completions, h.completions]
  registrations := by rw [List.filter_append, h'.registrations, h.registrations]

/-- A pass is not complete before its queue is closed. -/
theorem quiet_runPass (w : Heap) (g : CollectorId) :
    ∃ new, (w.runPass g).2.events = new ++ w.events ∧ Event.Quiet new := by
  let m := (w.beginPass g).markFrom ((w.beginPass g).collector g).registry
  refine ⟨.passSwept (w.runPass g).1.1.swept :: .passMarked m.markedCount ::
    (m.dangling.map .danglingLink ++ [.passStarted (w.collector g).registry.size]), ?_, ?_⟩
  · simp [runPass, endPass, emitMarked, beginPass, emit, modifyCollector, m]
  · intro e he
    simp only [List.mem_cons, List.mem_append, List.mem_map, List.not_mem_nil, or_false] at he
    rcases he with rfl | rfl | ⟨h, -, rfl⟩ | rfl <;> exact ⟨rfl, rfl⟩

theorem quiet_duePass (w : Heap) (g : CollectorId) :
    ∃ new, (w.duePass g).2.events = new ++ w.events ∧ Event.Quiet new := by
  by_cases hd : w.PassDue g
  · let e : Event := .thresholdReached (w.collector g).pending (w.collector g).step
    obtain ⟨new, hevents, hquiet⟩ := quiet_runPass (w.emit e) g
    refine ⟨new ++ [e], ?_, fun e' he => ?_⟩
    · rw [duePass_of_due hd, hevents, List.append_assoc]
      rfl
    · rcases List.mem_append.mp he with he | he
      · exact hquiet e' he
      · obtain rfl := List.mem_singleton.mp he
        exact ⟨rfl, rfl⟩
  · exact ⟨[], by rw [duePass_of_not_due hd]; rfl, nofun⟩

theorem adds_register (w : Heap) (g : CollectorId) (x : Holder) :
    ∃ new, w.Adds (w.register g x).2 new [] ((Action.register g x).registration? w).toList := by
  obtain ⟨new, hevents, hquiet⟩ := quiet_duePass w g
  cases hslot : (w.duePass g).2.slot? g x.handle with
  | some y =>
    have hfound : ((w.duePass g).2.insertSlot g x).1 = some y := hslot
    have hregister : (w.register g x).1.isAccepted = false ∧
        (w.register g x).2.events = (w.duePass g).2.events := by
      rw [register_eq, hfound]
      exact ⟨rfl, rfl⟩
    rw [Action.registration?, hregister.1]
    exact ⟨new, .of_quiet (hregister.2.trans hevents) hquiet⟩
  | none =>
    have hfound : ((w.duePass g).2.insertSlot g x).1 = none := hslot
    have hregister : (w.register g x).1.isAccepted = true ∧
        (w.register g x).2.events = .objectRegistered x.handle :: (w.duePass g).2.events := by
      rw [register_eq, hfound]
      exact ⟨isAccepted_accept .., by cases (w.duePass g).1 <;> rfl⟩
    rw [Action.registration?, hregister.1, if_pos rfl]
    obtain ⟨-, hcompletions, hregistrations⟩ := Adds.of_quiet hevents hquiet
    refine ⟨.objectRegistered x.handle :: new, by rw [hregister.2, hevents]; rfl, ?_, ?_⟩
    · simpa [Event.isCompletion] using hcompletions
    · simpa [Event.isRegistration] using hregistrations

/-- An action reports the pass that it completes and the object that it registers, and no other. -/
theorem adds_perform (ha : a.Announces w) :
    ∃ new, w.Adds (a.perform w) new (a.completion? w).toList (a.registration? w).toList := by
  have hsilent : ∀ {v : Heap}, v.events = w.events → ∃ new, w.Adds v new [] [] :=
    fun hv => ⟨[], .of_quiet hv nofun⟩
  have hone : ∀ {v : Heap} {e : Event}, v.events = e :: w.events → Event.Quiet [e] →
      ∃ new, w.Adds v new [] [] :=
    fun hv he => ⟨[_], .of_quiet hv he⟩
  cases a with
  | register g x => exact adds_register w g x
  | cleanup g =>
    by_cases hs : (w.collector g).state = .stopped
    · rw [Action.perform, beginCleanup, if_pos hs]
      exact hone rfl (by simp [Event.Quiet, Event.isCompletion, Event.isRegistration])
    · obtain ⟨new, hevents, hquiet⟩ := quiet_runPass w g
      rw [Action.perform, beginCleanup, if_neg hs]
      exact ⟨new, .of_quiet hevents hquiet⟩
  | close q =>
    cases hq : w.queue? q with
    | none =>
      rw [Action.perform, closeQueue, Action.completion?, hq]
      exact hsilent rfl
    | some p =>
      refine ⟨_, events_closeQueue hq, ?_, ?_⟩
      · rw [Action.completion?, hq, Option.bind_some]
        cases p.counts? <;> rfl
      · cases p.counts? <;> rfl
  | report events =>
    obtain ⟨e, rfl, he⟩ := ha
    refine hone rfl fun e' he' => ?_
    obtain rfl := List.mem_singleton.mp he'
    cases e' <;> first | exact ⟨rfl, rfl⟩ | cases he
  | allocate kind | stop g | resume g =>
    exact hone rfl (by simp [Event.Quiet, Event.isCompletion, Event.isRegistration])
  | get g kind h => exact hsilent (by simp only [Action.perform]; cases w.lookup g kind h <;> rfl)
  | getObject g h => exact hsilent (by simp only [Action.perform]; cases w.lookupBase g h <;> rfl)
  | registryErase r h => exact hsilent (by simp only [Action.perform, registryErase]; split <;> rfl)
  | _ => exact hsilent rfl

/-- A run reports each pass that is completed and each object that is registered once. -/
theorem adds_performs (has : w.Each Action.Announces as) :
    ∃ new, w.Adds (w.performs as) new (w.gather Action.completion? as)
      (w.gather Action.registration? as) := by
  induction as generalizing w with
  | nil => exact ⟨[], .of_quiet rfl nofun⟩
  | cons a as ih =>
    obtain ⟨new, hadds⟩ := adds_perform has.1
    obtain ⟨later, hlater⟩ := ih has.2
    exact ⟨later ++ new, hadds.trans hlater⟩

end Heap

/-! ## Files -/

namespace Files

variable {α : Type} {fs fs' : Files α} {l : Location} {content : α}

theorem names_ne_nil (h : fs.at? l ≠ some .directory) : l.names ≠ [] := by
  intro hn
  refine h ?_
  rw [at?, hn]

theorem at?_put (e : Entry α) (hl : l.names ≠ []) : (fs.put l e).at? l = some e := by
  unfold at?
  split
  · contradiction
  · simp [put]

theorem at?_modify (f : α → α) (hl : fs.at? l = some (.file content)) :
    (fs.modify l f).at? l = some (.file (f content)) := by
  rw [modify, hl]
  exact at?_put _ (names_ne_nil (by rw [hl]; simp))

/-- Where a file is opened, there is one. -/
theorem at?_openOrCreate {path : String} (h : fs.openOrCreate path content = .ok (l, fs')) :
    ∃ content', fs'.at? l = some (.file content') := by
  unfold openOrCreate at h
  cases hl : fs.locate path with
  | error e => rw [hl] at h; cases h
  | ok l' =>
    rw [hl] at h
    dsimp only [bind, Except.bind] at h
    split at h
    · rename_i hnone
      cases h
      exact ⟨content, at?_put _ (names_ne_nil (by rw [hnone]; simp))⟩
    · cases h
    · rename_i content' hfile
      cases h
      exact ⟨content', hfile⟩

theorem at?_openInDirectory {directory file : String}
    (h : fs.openInDirectory directory file content = (.ok l, fs')) :
    ∃ content', fs'.at? l = some (.file content') := by
  unfold openInDirectory at h
  dsimp only at h
  split at h
  · rename_i hopen
    cases h
    exact at?_openOrCreate hopen
  · split at h
    · rename_i hopen
      cases h
      exact at?_openOrCreate hopen
    · cases h

end Files

/-! ## What is written -/

namespace Logging

namespace Directive

theorem isStart_of_isAlpha {c : Char} (h : c.isAlpha = true) : isStart c = true := by
  simp [isStart, Text.isAlphanumeric, Text.isAlphabetic_of_isAlpha h]

/-- A target and a limit with `=` between them, without blanks around, are read as such. -/
theorem read_target_limit {c : Char} {rest word : List Char} {limit : Option Level}
    (hc : isStart c = true) (hrest : ∀ d ∈ c :: rest, (d != '=' && d != '[') = true)
    (htrim : Text.trim (c :: rest ++ '=' :: word) = c :: rest ++ '=' :: word)
    (hword : readLimit? word = some limit) :
    read (c :: rest ++ '=' :: word) = .ok { target := String.ofList (c :: rest), limit } := by
  have hspan : (c :: rest ++ '=' :: word).span (fun c => c != '=' && c != '[') =
      (c :: rest, '=' :: word) := by
    rw [List.span_eq_takeWhile_dropWhile, List.takeWhile_append_of_pos hrest,
      List.dropWhile_append_of_pos hrest]
    simp
  have hcut : read.cut (c :: rest ++ '=' :: word) 0 (Text.byteCount (c :: rest)) =
      .ok (String.ofList (c :: rest)) := by
    rw [read.cut, Text.betweenBytes?_zero_append]
  have hstop : Text.fromByte? (Text.byteCount (c :: rest) + 1) (c :: rest ++ '=' :: word) =
      some word := by
    have := Text.fromByte?_append (c :: rest ++ ['=']) word
    rwa [Text.byteCount_append, List.append_assoc] at this
  have hlimit : read.readRest (c :: rest ++ '=' :: word) { target := String.ofList (c :: rest) }
      (Text.byteCount (c :: rest) + 1) = .ok { target := String.ofList (c :: rest), limit } := by
    rw [read.readRest, hstop]
    cases word with
    | nil => cases hword
    | cons d word =>
      dsimp only
      rw [hword]
  unfold read
  rw [htrim]
  dsimp only
  rw [hspan]
  dsimp only
  rw [hcut]
  split
  · contradiction
  · rename_i heq
    obtain ⟨rfl, -⟩ := List.cons.inj heq
    cases hrest '[' List.mem_cons_self
  · rename_i heq
    obtain ⟨rfl, -⟩ := List.cons.inj heq
    rw [if_pos hc]
    exact hlimit

end Directive

/-- The own filter of a level is one directive. -/
theorem Filter.readLeniently_ownDirective (level : Level) :
    readLeniently (ownDirective level) = [{ target := "crossgc", limit := some level }] := by
  let word := level.name.toList.map Char.toLower
  have hpieces : Text.pieces ',' (ownDirective level).toList =
      ['c' :: "rossgc".toList ++ '=' :: word] := by
    cases level <;> decide +kernel
  have htrim : Text.trim ('c' :: "rossgc".toList ++ '=' :: word) =
      'c' :: "rossgc".toList ++ '=' :: word := by
    cases level <;> decide +kernel
  have hword : Directive.readLimit? word = some (some level) := by
    cases level <;> decide +kernel
  have hplain : ∀ c ∈ 'c' :: "rossgc".toList, (c != '=' && c != '[') = true :=
    List.all_eq_true.mp (by decide +kernel)
  have hread := Directive.read_target_limit (Directive.isStart_of_isAlpha rfl) hplain htrim hword
  rw [readLeniently, hpieces, List.filterMap_cons, hread]
  rfl

variable {e : Event} {level : Level}

theorem Facilities.ownTargets_usual : usual.OwnTargets := by
  intro level e
  have happlies : Directive.appliesTo { target := "crossgc", limit := some level } e =
      "crossgc".toList.isPrefixOf e.target.toList := by simp [Directive.appliesTo]
  rw [readLeniently_usual, enables_usual, Filter.readLeniently_ownDirective, Filter.enables,
    Filter.decisive?, List.filter_cons, happlies]
  cases "crossgc".toList.isPrefixOf e.target.toList <;> rfl

theorem Facilities.keepsFiles_usual : usual.KeepsFiles :=
  fun _ _ _ _ _ => Files.at?_openInDirectory

variable {φ : Type} {tools : Facilities φ}

/-- The filter of a level lets timed operations through, if it is verbose enough, and nothing else. -/
theorem Facilities.OwnTargets.enables_iff (htargets : tools.OwnTargets) :
    tools.enables (tools.readLeniently (ownDirective level)) e = true ↔
      (∃ name, e = .operationDone name) ∧ Level.debug.verbosity ≤ level.verbosity := by
  rw [htargets]
  cases e with
  | operationDone name =>
    have htarget : "crossgc".toList.isPrefixOf (Event.operationDone name).target.toList = true := by
      simp [Event.target]
    rw [htarget, Bool.true_and, decide_eq_true_iff]
    exact (and_iff_right ⟨name, rfl⟩).symm
  | _ => simp [Event.target]

namespace Logger

variable {s : Logger φ} {filter : φ} {json : Bool} {l : Location} {f : LogFile}

/-- The log file gets a line for each event that the filter lets through. -/
theorem at?_records (hs : s.receiver = some (.logger filter json (.file l)))
    (hl : s.files.at? l = some (.file f)) (es : List Event) :
    (es.reverse.foldl (record tools) s).files.at? l = some (.file { f with
      lines := (es.filter (tools.enables filter)).map (⟨json, ·⟩) ++ f.lines }) := by
  have hrecord : ∀ es : List Event,
      (es.reverse.foldl (record tools) s).receiver = s.receiver := fun es => by
    rw [List.foldl_reverse]
    induction es with
    | nil => rfl
    | cons e es ih => exact (record_frame tools _ e).1.trans ih
  induction es with
  | nil => exact hl
  | cons e es ih =>
    rw [List.reverse_cons, List.foldl_append, List.foldl_cons, List.foldl_nil, record, hrecord, hs]
    dsimp only
    cases he : tools.enables filter e with
    | false => simpa [he] using ih
    | true => simpa [write, he] using Files.at?_modify _ ih

/-- Nothing is written but timed operations. -/
theorem countP_written {p : Event → Bool} {level : Level} (htargets : tools.OwnTargets)
    (hp : ∀ name, p (.operationDone name) = false) (es : List Event) :
    ((es.filter (tools.enables (tools.readLeniently (ownDirective level)))).map
      (⟨json, ·⟩ : Event → Line)).countP (p ·.event) = 0 := by
  refine List.countP_eq_zero.mpr fun line hline => ?_
  obtain ⟨e, he, rfl⟩ := List.mem_map.mp hline
  obtain ⟨⟨name, rfl⟩, -⟩ := htargets.enables_iff.mp (List.mem_filter.mp he).2
  simp [hp]

/-- A start with an acceptable path that finds no filter in the environment writes to a file what the
filter of its level lets through. -/
theorem start_file {files : Files LogFile} {path : String} {settings : Settings}
    (hgrants : tools.Exclusive) (hpath : settings.path = some path)
    (hacc : Acceptable tools files settings.path) :
    (start tools { files } none settings).1 = .done true ∧ ∃ directory file l,
      Path.splitFile? path = some (directory, file) ∧
      tools.openFile files directory file =
        (.ok l, (start tools { files } none settings).2.files) ∧
      (start tools { files } none settings).2.receiver =
        some (.logger (tools.readLeniently (ownDirective settings.level)) settings.json
          (.file l)) := by
  obtain ⟨directory, file, l, hsplit, hopen⟩ := hacc path hpath
  have hopen : tools.openFile files directory file =
      (.ok l, (tools.openFile files directory file).2) := Prod.ext hopen rfl
  have hsink : openSink tools { files } settings.path = (.ok (.file l, true),
      { files := (tools.openFile files directory file).2 }) := by
    rw [hpath, openSink, hsplit]
    dsimp only
    rw [hopen]
  have hstart : start tools { files } none settings = (.done true,
      { files := (tools.openFile files directory file).2
        receiver := some (.logger (tools.readLeniently (ownDirective settings.level)) settings.json
          (.file l))
        initialized := true }) := by
    simp [start, chooseFilter?, hsink, install, hgrants none]
  rw [hstart]
  exact ⟨rfl, directory, file, l, hsplit, hopen, rfl⟩

/-- **Passes do not reach the log file.** Take any facilities that grant the events of a process once,
whose opened files are there, and whose own filter of a level lets through what comes from the library's
targets up to that level. Start the logger with a log file that can be opened, at any level and in
either format, where the environment has no filter, and then take any run. The run reports
each pass that is completed once, and each object that is registered once. The file gets a line for
each event that the filter of the level lets through, and these are neither. So there is one line for
each completed pass exactly if no pass is completed, and one for each registration exactly if nothing
is registered. Programs that start no threads are such runs. -/
theorem passes_reach_file_iff (tools : Facilities φ) (hgrants : tools.Exclusive)
    (hfiles : tools.KeepsFiles) (htargets : tools.OwnTargets) (files : Files LogFile) {path : String}
    {settings : Settings} (hpath : settings.path = some path)
    (hacc : Acceptable tools files settings.path) :
    let s := (start tools { files } none settings).2
    ((start tools { files } none settings).1 = .done true ∧ ∃ directory file l f,
        Path.splitFile? path = some (directory, file) ∧
        tools.openFile files directory file = (.ok l, s.files) ∧
        s.files.at? l = some (.file f) ∧
        ∀ (w : Heap) (as : List Action), w.Each Action.Announces as →
          let completions := w.gather Action.completion? as
          let registrations := w.gather Action.registration? as
          ∃ reported lines,
            (w.performs as).events = reported ++ w.events ∧
            reported.filter (·.isCompletion) = completions ∧
            reported.filter (·.isRegistration) = registrations ∧
            (reported.reverse.foldl (record tools) s).files.at? l =
              some (.file { f with lines := lines ++ f.lines }) ∧
            lines = (reported.filter
              (tools.enables (tools.readLeniently (ownDirective settings.level)))).map
              (⟨settings.json, ·⟩) ∧
            (lines.countP (·.event.isCompletion) = completions.length ↔ completions = []) ∧
            (lines.countP (·.event.isRegistration) = registrations.length ↔
              registrations = [])) ∧
    ∀ depth steps name spec, alone steps = true → let w := (Session.start name spec).heap
      ∃ as, Session.Ran w (runSteps depth steps (.start name spec)).2 as ∧
        w.Each Action.Announces as := by
  intro s
  refine ⟨?_, fun depth steps name spec halone => ?_⟩
  · obtain ⟨hdone, directory, file, l, hsplit, hopen, hreceiver⟩ := start_file hgrants hpath hacc
    obtain ⟨f, hf⟩ := hfiles _ _ _ _ _ hopen
    refine ⟨hdone, directory, file, l, f, hsplit, hopen, hf, fun w as has => ?_⟩
    obtain ⟨reported, hevents, hcompletions, hregistrations⟩ := adds_performs has
    refine ⟨reported, _, hevents, hcompletions, hregistrations, at?_records hreceiver hf reported, rfl,
      ?_⟩
    rw [countP_written htargets (fun _ => rfl), countP_written htargets (fun _ => rfl)]
    exact ⟨by rw [eq_comm, List.length_eq_zero_iff], by rw [eq_comm, List.length_eq_zero_iff]⟩
  · obtain ⟨-, -, -, as, hran, hannounces⟩ := runSteps_announces depth steps name spec
    exact ⟨as, hran, hannounces halone⟩

/-- At the most verbose level an object is registered and swept, and neither is written. -/
theorem passes_reach_file_iff_of_pass :
    let settings : Settings := { level := .trace, path := some "gc.log", json := true }
    let x : Holder := ⟨.fresh 0, .whole⟩
    let as : List Action := [.addCollector 2, .allocate .object, .clone x, .register 0 x, .drop x,
      .cleanup 0, .release 0, .close 0]
    let w := initial 1
    let s := (start Facilities.usual {} none settings).2
    w.gather Action.completion? as = [.passComplete 1 0] ∧
      w.gather Action.registration? as = [.objectRegistered (.fresh 0)] ∧
      (∃ (reported : List Event) (l : Location) (f : LogFile) (lines : List Line),
        (w.performs as).events = reported ∧
        (reported.reverse.foldl (record Facilities.usual) s).files.at? l =
          some (.file { f with lines := lines ++ f.lines }) ∧
        lines.countP (·.event.isCompletion) ≠ 1 ∧ lines.countP (·.event.isRegistration) ≠ 1) ∧
      ∃ as, Session.Ran (Session.start "gc" (.withStep 2)).heap
        (runSteps 9 [.mk "gc" .cleanup] (.start "gc" (.withStep 2))).2 as := by
  intro settings x as w s
  have hcompletions : w.gather Action.completion? as = [.passComplete 1 0] := by decide +kernel
  have hregistrations : w.gather Action.registration? as = [.objectRegistered (.fresh 0)] := by
    decide +kernel
  have hacc : Acceptable Facilities.usual {} settings.path := by
    intro p hp
    obtain rfl := Option.some.inj hp
    exact ⟨".", "gc.log", ⟨.above 0, ["gc.log"]⟩, by decide +kernel, rfl⟩
  have hannounces : w.Each Action.Announces as := .of_forall (by simp [as, Action.Announces]) w
  obtain ⟨⟨-, _, _, l, f, -, -, -, hruns⟩, hprograms⟩ :=
    passes_reach_file_iff Facilities.usual Facilities.exclusive_usual Facilities.keepsFiles_usual
      Facilities.ownTargets_usual {} rfl hacc
  obtain ⟨reported, lines, hevents, -, -, hl, -, hnone, hnone'⟩ := hruns w as hannounces
  rw [hcompletions] at hnone
  rw [hregistrations] at hnone'
  obtain ⟨ps, hran, -⟩ := hprograms 9 [.mk "gc" .cleanup] "gc" (.withStep 2) (by decide)
  refine ⟨hcompletions, hregistrations, ⟨reported, l, f, lines, ?_, hl, ?_, ?_⟩, ps, hran⟩
  · exact hevents.trans (List.append_nil reported)
  · exact fun h => List.cons_ne_nil _ _ (hnone.mp h)
  · exact fun h => List.cons_ne_nil _ _ (hnone'.mp h)

/-- A session that logs to a file counts a pass, and its log file stays empty. -/
theorem pass_without_line :
    let settings : Settings := { path := some "gc.log", json := true }
    let p := (LoggedSession.calls Facilities.usual [.start settings, .pass 2 1] {}).2
    p.environment.text? directivesVariable = none ∧ p.logger.initialized = true ∧
      (p.session.heap.collector 0).collectionsRun = 1 ∧
      p.logger.files.list.map (fun file => (file.1, file.2.lines.length)) = [("gc.log", 0)] := by
  -- read beforehand: the tables of letters are too large to be evaluated
  let own : Filter := [{ target := "crossgc", limit := some .info }]
  have hread : Filter.readLeniently =
      fun text => if text = ownDirective .info then own else Filter.readLeniently text := by
    funext text
    split
    · rename_i htext
      rw [htext]
      exact Filter.readLeniently_ownDirective .info
    · rfl
  rw [Facilities.usual, hread]
  decide +kernel

end Logger

end Logging

end SharedHeap
