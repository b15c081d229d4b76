import SharedHeap.LoggedSession
import SharedHeap.Logging.Filter

/-! # Starting the logger

The logger is started for good by the first call that succeeds. Up to then every call leaves it as it
was, but for directories and an empty file, and what a call needs is the same whatever failed before:
a path that leads to a file, and that nobody else receives the events. Nothing is assumed of the
facilities that the logger relies on but that their reader of filters returns for every text, and that
they grant the events of a process once. -/

namespace SharedHeap

namespace Logging

/-- Something that happens to the logging of a process. -/
inductive Change where
  | start (directives : Option String) (settings : Settings)
  /-- Something else asks to receive the events. -/
  | installForeign
  | record (e : Event)
  /-- Files change by other means. -/
  | replaceFiles (files : Files LogFile)

/-- The same facilities, but a text that the reader of filters does not return for is malformed. -/
def Facilities.returning {φ : Type} (tools : Facilities φ) : Facilities φ :=
  { tools with read := fun text =>
      match tools.read text with
      | .crashed => .malformed
      | r => r }

theorem Facilities.returns_returning {φ : Type} (tools : Facilities φ) : tools.returning.Returns := by
  intro text
  simp only [returning]
  split <;> simp_all

/-- The facilities that programs run with grant the events of a process once. -/
theorem Facilities.exclusive_usual : usual.Exclusive := fun _ => rfl

section

variable {φ : Type} (tools : Facilities φ)

/-- The log path, if there is one, leads to a file that is there or can be made. -/
def Acceptable (files : Files LogFile) (path : Option String) : Prop :=
  ∀ p ∈ path, ∃ directory file l, Path.splitFile? p = some (directory, file) ∧
    (tools.openFile files directory file).1 = .ok l

def Change.perform (s : Logger φ) : Change → Logger φ
  | start directives settings => (s.start tools directives settings).2
  | installForeign => (s.install tools .foreign).2
  | record e => s.record tools e
  | replaceFiles files => { s with files }

/-- By this change the logger comes to receive the events. -/
def Change.Installs (s : Logger φ) (c : Change) : Prop :=
  s.receiver = none ∧
    ∃ filter json sink, (c.perform tools s).receiver = some (.logger filter json sink)

end

namespace Logger

variable {φ : Type} {tools : Facilities φ} {s t : Logger φ} {directives : Option String}
  {settings : Settings} {path : Option String}
  {c : Change} {cs : List Change}

variable (tools) in
def performs (s : Logger φ) : List Change → Logger φ
  | [] => s
  | c :: cs => (c.perform tools s).performs cs

theorem performs_append (s : Logger φ) (cs ds : List Change) :
    s.performs tools (cs ++ ds) = (s.performs tools cs).performs tools ds := by
  induction cs generalizing s with
  | nil => rfl
  | cons c cs ih => exact ih (c.perform tools s)

/-! ## One start -/

/-- Whatever the text of a filter is, there is a filter to use. -/
theorem exists_chooseFilter? (hread : tools.Returns) (directives : Option String) (level : Level) :
    ∃ filter, chooseFilter? tools directives level = some filter := by
  cases directives with
  | none => exact ⟨_, rfl⟩
  | some text =>
    simp only [chooseFilter?, Option.map_some]
    cases hr : tools.read text with
    | filter f => exact ⟨f, rfl⟩
    | malformed => exact ⟨_, rfl⟩
    | crashed => exact absurd hr (hread text)

theorem install_of_none (hgrants : tools.Exclusive) (hs : s.receiver = none) (r : Receiver φ) :
    s.install tools r = (true, { s with receiver := some r }) := by
  rw [install, if_pos (by rw [hgrants, hs]; rfl)]

theorem install_of_some {r' : Receiver φ} (hgrants : tools.Exclusive) (hs : s.receiver = some r')
    (r : Receiver φ) : s.install tools r = (false, s) := by
  rw [install, if_neg (by rw [hgrants, hs]; simp)]

/-- Opening what a log path leads to changes files alone. It succeeds iff the path is acceptable. -/
theorem openSink_cases (tools : Facilities φ) (s : Logger φ) (path : Option String) :
    (∃ sink files, Acceptable tools s.files path ∧
      s.openSink tools path = (.ok (sink, path.isSome), { s with files })) ∨
    (∃ p, path = some p ∧ Path.splitFile? p = none ∧
      s.openSink tools path = (.error (.refused (.notAFilePath p)), s)) ∨
    ∃ p files, path = some p ∧ Path.splitFile? p ≠ none ∧ ¬ Acceptable tools s.files path ∧
      s.openSink tools path = (.error .crashed, { s with files }) := by
  cases path with
  | none => exact .inl ⟨.standardError, s.files, by simp [Acceptable], rfl⟩
  | some p =>
    cases hp : Path.splitFile? p with
    | none => exact .inr (.inl ⟨p, rfl, hp, by simp [openSink, hp]⟩)
    | some split =>
      obtain ⟨directory, file⟩ := split
      cases hopen : tools.openFile s.files directory file with
      | mk result files =>
        cases result with
        | ok l =>
          refine .inl ⟨.file l, files, ?_, by simp [openSink, hp, hopen]⟩
          intro p' hp'
          obtain rfl : p = p' := Option.some.inj hp'
          exact ⟨directory, file, l, hp, by rw [hopen]⟩
        | error e =>
          refine .inr (.inr ⟨p, files, rfl, by simp [hp], fun hacc => ?_,
            by simp [openSink, hp, hopen]⟩)
          obtain ⟨_, _, l, hsplit, hl⟩ := hacc p rfl
          rw [hp] at hsplit
          cases hsplit
          rw [hopen] at hl
          cases hl

/-- A path without a file name is refused, whatever the environment has for a filter. -/
theorem start_of_unnamed {p : String} (hread : tools.Returns) (hs : s.initialized = false)
    (directives : Option String) (hp : settings.path = some p) (hsplit : Path.splitFile? p = none) :
    s.start tools directives settings = (.refused (.notAFilePath p), s) := by
  obtain ⟨filter, hf⟩ := exists_chooseFilter? hread directives settings.level
  simp [start, hs, hf, openSink, hp, hsplit]

variable (tools) in
/-- What a start comes to that finds the logger not started yet. -/
inductive Starts (s : Logger φ) (directives : Option String) (settings : Settings) :
    Start → Logger φ → Prop where
  | unnamed (p : String) : settings.path = some p → Path.splitFile? p = none →
      Starts s directives settings (.refused (.notAFilePath p)) s
  | unopened (p : String) (files : Files LogFile) : settings.path = some p →
      Path.splitFile? p ≠ none → ¬ Acceptable tools s.files settings.path →
      Starts s directives settings .crashed { s with files }
  | taken (files : Files LogFile) : Acceptable tools s.files settings.path → s.receiver ≠ none →
      Starts s directives settings (.refused .alreadyReceived) { s with files }
  | installed (filter : φ) (sink : Sink) (files : Files LogFile) :
      Acceptable tools s.files settings.path → s.receiver = none →
      chooseFilter? tools directives settings.level = some filter →
      s.openSink tools settings.path = (.ok (sink, settings.path.isSome), { s with files }) →
      Starts s directives settings (.done settings.path.isSome)
        { s with
          files
          receiver := some (.logger filter settings.json sink)
          initialized := true }

theorem starts_start (hread : tools.Returns) (hgrants : tools.Exclusive)
    (hs : s.initialized = false) (directives : Option String) (settings : Settings) :
    s.Starts tools directives settings (s.start tools directives settings).1
      (s.start tools directives settings).2 := by
  unfold start
  rw [hs, if_neg Bool.false_ne_true]
  obtain ⟨filter, hf⟩ := exists_chooseFilter? hread directives settings.level
  rcases s.openSink_cases tools settings.path with ⟨sink, files, hacc, ho⟩ | ⟨p, hp, hsplit, ho⟩ |
    ⟨p, files, hp, hsplit, hacc, ho⟩
  · rw [hf]
    dsimp only
    rw [ho]
    dsimp only
    by_cases hr : s.receiver = none
    · rw [install_of_none (s := { s with files }) hgrants hr]
      exact .installed filter sink files hacc hr hf ho
    · obtain ⟨r, hr'⟩ := Option.ne_none_iff_exists'.mp hr
      rw [install_of_some (s := { s with files }) hgrants hr']
      exact .taken files hacc hr
  · rw [hf]
    dsimp only
    rw [ho]
    exact .unnamed p hp hsplit
  · rw [hf]
    dsimp only
    rw [ho]
    exact .unopened p files hp hsplit hacc

/-- Once the logger is started, starting it again does nothing. -/
theorem start_of_initialized (hs : s.initialized = true) (directives : Option String)
    (settings : Settings) : s.start tools directives settings = (.done false, s) := if_pos hs

theorem Starts.done_iff {r : Start} (h : s.Starts tools directives settings r t) :
    (∃ guard, r = .done guard) ↔ Acceptable tools s.files settings.path ∧ s.receiver = none := by
  cases h with
  | unnamed p hp hsplit => simp [Acceptable, hp, hsplit]
  | unopened p files hp hsplit hacc => simp [hacc]
  | taken files hacc hrec => simp [hrec]
  | installed filter sink files hacc hrec => simp [hacc, hrec]

theorem Starts.unnamed_iff {r : Start} (h : s.Starts tools directives settings r t) (p : String) :
    r = .refused (.notAFilePath p) ↔ settings.path = some p ∧ Path.splitFile? p = none := by
  cases h with
  | unnamed p' hp hsplit =>
    constructor
    · intro h
      cases h
      exact ⟨hp, hsplit⟩
    · rintro ⟨hp', -⟩
      rw [hp] at hp'
      cases hp'
      rfl
  | unopened p' files hp hsplit hacc =>
    refine iff_of_false (by simp) ?_
    rintro ⟨hp', hn⟩
    rw [hp] at hp'
    cases hp'
    exact hsplit hn
  | taken files hacc hrec | installed filter sink files hacc hrec =>
    refine iff_of_false (by simp) ?_
    rintro ⟨hp, hn⟩
    obtain ⟨directory, file, l, hsplit, -⟩ := hacc p hp
    rw [hn] at hsplit
    cases hsplit

theorem Starts.taken_iff {r : Start} (h : s.Starts tools directives settings r t) :
    r = .refused .alreadyReceived ↔
      Acceptable tools s.files settings.path ∧ s.receiver ≠ none := by
  cases h with
  | unnamed p hp hsplit => simp [Acceptable, hp, hsplit]
  | unopened p files hp hsplit hacc => simp [hacc]
  | taken files hacc hrec => simp [hacc, hrec]
  | installed filter sink files hacc hrec => simp [hrec]

theorem Starts.crashed_iff {r : Start} (h : s.Starts tools directives settings r t) :
    r = .crashed ↔ (∃ p, settings.path = some p ∧ Path.splitFile? p ≠ none) ∧
      ¬ Acceptable tools s.files settings.path := by
  cases h with
  | unnamed p hp hsplit => simp [hp, hsplit]
  | unopened p files hp hsplit hacc => exact iff_of_true rfl ⟨⟨p, hp, hsplit⟩, hacc⟩
  | taken files hacc hrec | installed filter sink files hacc hrec => simp [hacc]

/-- A start that finds the logger not started yet starts it iff it succeeds. -/
theorem Starts.initialized_iff {r : Start} (hs : s.initialized = false)
    (h : s.Starts tools directives settings r t) :
    t.initialized = true ↔ ∃ guard, r = .done guard := by
  cases h <;> simp [hs]

theorem Starts.guard_eq {r : Start} (h : s.Starts tools directives settings r t) {guard : Bool}
    (hr : r = .done guard) : guard = settings.path.isSome := by
  cases h with
  | installed => exact (Start.done.inj hr).symm
  | _ => cases hr

theorem Starts.installs_iff {r : Start} (hr : s.receiver = none ∨ s.receiver = some .foreign)
    (h : s.Starts tools directives settings r t) :
    (s.receiver = none ∧ ∃ filter json sink, t.receiver = some (.logger filter json sink)) ↔
      ∃ guard, r = .done guard := by
  cases h with
  | installed filter sink files _ hrec => simp [hrec]
  | _ => rcases hr with hr | hr <;> simp [hr]

/-! ## Any number of changes -/

theorem write_frame (s : Logger φ) (line : Line) (sink : Sink) :
    (s.write line sink).receiver = s.receiver ∧
      (s.write line sink).initialized = s.initialized := by
  cases sink <;> exact ⟨rfl, rfl⟩

theorem record_frame (tools : Facilities φ) (s : Logger φ) (e : Event) :
    (s.record tools e).receiver = s.receiver ∧
      (s.record tools e).initialized = s.initialized := by
  unfold record
  split
  · split
    · exact write_frame ..
    · exact ⟨rfl, rfl⟩
  · exact ⟨rfl, rfl⟩

/-- The logger is started iff it receives the events. Until then something else receives them iff
`foreign` says so. -/
structure Consistent (s : Logger φ) (foreign : Prop) : Prop where
  started : s.initialized = true → ∃ filter json sink, s.receiver = some (.logger filter json sink)
  waiting : s.initialized = false →
    (s.receiver = none ∧ ¬ foreign) ∨ (s.receiver = some .foreign ∧ foreign)

variable {foreign : Prop}

theorem Consistent.congr {foreign' : Prop} (h : s.Consistent foreign)
    (hr : t.receiver = s.receiver) (hi : t.initialized = s.initialized)
    (hf : foreign ↔ foreign') : t.Consistent foreign' := by
  obtain ⟨hstarted, hwaiting⟩ := h
  rw [← hr, ← hi] at hstarted hwaiting
  exact ⟨hstarted, fun hs => by rw [← hf]; exact hwaiting hs⟩

theorem Consistent.receiver_eq_none_iff (h : s.Consistent foreign) (hs : s.initialized = false) :
    s.receiver = none ↔ ¬ foreign := by
  rcases h.waiting hs with ⟨hr, hf⟩ | ⟨hr, hf⟩ <;> simp [hr, hf]

theorem Consistent.not_installs (h : s.Consistent foreign) (hs : s.initialized = true)
    (c : Change) : ¬ c.Installs tools s := by
  obtain ⟨filter, json, sink, hr⟩ := h.started hs
  rintro ⟨hn, -⟩
  rw [hr] at hn
  cases hn

section

variable (hread : tools.Returns) (hgrants : tools.Exclusive)
include hread hgrants

theorem Consistent.perform (h : s.Consistent foreign) (c : Change) :
    (c.perform tools s).Consistent (foreign ∨ c = .installForeign) := by
  cases c with
  | record e =>
    exact h.congr (s.record_frame tools e).1 (s.record_frame tools e).2 (by simp)
  | replaceFiles files => exact h.congr rfl rfl (by simp)
  | installForeign =>
    cases hs : s.initialized with
    | true =>
      obtain ⟨filter, json, sink, hr⟩ := h.started hs
      rw [Change.perform, install_of_some hgrants hr]
      exact ⟨fun _ => ⟨filter, json, sink, hr⟩, fun hn => absurd (hs.symm.trans hn) nofun⟩
    | false =>
      have hstarted : ∀ {P : Prop}, s.initialized = true → P := fun hn =>
        absurd (hs.symm.trans hn) nofun
      rcases h.waiting hs with ⟨hr, -⟩ | ⟨hr, -⟩
      · rw [Change.perform, install_of_none hgrants hr]
        exact ⟨hstarted, fun _ => .inr ⟨rfl, .inr rfl⟩⟩
      · rw [Change.perform, install_of_some hgrants hr]
        exact ⟨hstarted, fun _ => .inr ⟨hr, .inr rfl⟩⟩
  | start directives settings =>
    cases hs : s.initialized with
    | true =>
      rw [Change.perform, start_of_initialized hs]
      exact h.congr rfl rfl (by simp)
    | false =>
      have hstarts := starts_start hread hgrants hs directives settings
      rw [Change.perform]
      generalize s.start tools directives settings = result at *
      obtain ⟨r, t⟩ := result
      cases hstarts with
      | installed filter sink files => exact ⟨fun _ => ⟨filter, _, sink, rfl⟩, Bool.noConfusion⟩
      | _ => exact h.congr rfl rfl (by simp)

theorem Consistent.performs (h : s.Consistent foreign) (cs : List Change) :
    (s.performs tools cs).Consistent (foreign ∨ .installForeign ∈ cs) := by
  induction cs generalizing s foreign with
  | nil => exact h.congr rfl rfl (by simp)
  | cons c cs ih =>
    exact (ih (h.perform hread hgrants c)).congr rfl rfl (by simp [or_assoc, eq_comm])

/-- What starts the logger is that it comes to receive the events. -/
theorem Consistent.initialized_perform (h : s.Consistent foreign) (c : Change) :
    (c.perform tools s).initialized = true ↔ s.initialized = true ∨ c.Installs tools s := by
  cases hs : s.initialized with
  | true =>
    refine iff_of_true ?_ (.inl rfl)
    cases c with
    | start directives settings => rw [Change.perform, start_of_initialized hs, hs]
    | installForeign =>
      obtain ⟨filter, json, sink, hr⟩ := h.started hs
      rw [Change.perform, install_of_some hgrants hr, hs]
    | record e => exact (s.record_frame tools e).2.trans hs
    | replaceFiles files => exact hs
  | false =>
    have hr : s.receiver = none ∨ s.receiver = some .foreign :=
      (h.waiting hs).imp And.left And.left
    simp only [Bool.false_eq_true, false_or, Change.Installs]
    cases c with
    | start directives settings =>
      have hstarts := starts_start hread hgrants hs directives settings
      exact (hstarts.initialized_iff hs).trans (hstarts.installs_iff hr).symm
    | installForeign =>
      rcases hr with hr | hr
      · simp [Change.perform, install_of_none hgrants hr, hs]
      · simp [Change.perform, install_of_some hgrants hr, hr, hs]
    | record e =>
      rw [Change.perform, (s.record_frame tools e).1, (s.record_frame tools e).2]
      rcases hr with hr | hr <;> simp [hr, hs]
    | replaceFiles files => rcases hr with hr | hr <;> simp [Change.perform, hr, hs]

theorem Consistent.initialized_performs (h : s.Consistent foreign) (cs : List Change) :
    (s.performs tools cs).initialized = true ↔ s.initialized = true ∨
      ∃ before c after, cs = before ++ c :: after ∧ c.Installs tools (s.performs tools before) := by
  induction cs generalizing s foreign with
  | nil => simp [Logger.performs]
  | cons c cs ih =>
    rw [Logger.performs, ih (h.perform hread hgrants c), h.initialized_perform hread hgrants]
    constructor
    · rintro ((hs | hc) | ⟨before, d, after, rfl, hd⟩)
      · exact .inl hs
      · exact .inr ⟨[], c, cs, rfl, hc⟩
      · exact .inr ⟨c :: before, d, after, rfl, hd⟩
    · rintro (hs | ⟨before, d, after, he, hd⟩)
      · exact .inl (.inl hs)
      · cases before with
        | nil =>
          obtain ⟨rfl, rfl⟩ := List.cons.inj he
          exact .inl (.inr hd)
        | cons c' before =>
          obtain ⟨rfl, rfl⟩ := List.cons.inj he
          exact .inr ⟨before, d, after, rfl, hd⟩

/-- A logger that is started stays so. -/
theorem Consistent.initialized_of_prefix (h : s.Consistent foreign) {cs ds : List Change}
    (hp : cs <+: ds) (hs : (s.performs tools cs).initialized = true) :
    (s.performs tools ds).initialized = true := by
  obtain ⟨es, rfl⟩ := hp
  rw [performs_append]
  exact ((h.performs hread hgrants cs).initialized_performs hread hgrants es).mpr (.inl hs)

end

theorem performs_record (s : Logger φ) (es : List Event) :
    s.performs tools (es.map .record) = es.foldl (record tools) s := by
  induction es generalizing s with
  | nil => rfl
  | cons e es ih => exact ih (s.record tools e)

end Logger

end Logging

/-! ## Sessions -/

/-- What a call asks of the logger itself, where `env` is the environment. -/
def LoggedSession.Call.request? (env : Environment) : Call → Option Logging.Change
  | start settings => some (.start (env.text? Logging.directivesVariable) settings)
  | startFromEnvironment =>
    some (.start (env.text? Logging.directivesVariable) (.ofEnvironment env))
  | installForeign => some .installForeign
  | _ => none

/-- The change is a start, or something else asks to receive the events. -/
def Logging.Change.isRequest : Logging.Change → Bool
  | start _ _ | installForeign => true
  | _ => false

namespace LoggedSession

variable {φ : Type} (tools : Logging.Facilities φ)

/-- A call does what it asks of the logger, or gives it the events of the heap. -/
theorem logger_call (p : LoggedSession φ) (c : Call) :
    (p.call tools c).2.environment = p.environment ∧ ∃ es : List Event,
      (p.call tools c).2.logger =
        p.logger.performs tools ((c.request? p.environment).toList ++ es.map .record) := by
  cases c with
  | start settings | startFromEnvironment | installForeign => exact ⟨rfl, [], rfl⟩
  | pass step count | track name | sharedSize =>
    exact ⟨rfl, _, (p.logger.performs_record _).symm⟩

/-- What calls do to the logger is what they ask of it, with events in between. -/
theorem logger_calls (cs : List Call) (p : LoggedSession φ) :
    ∃ changes, (calls tools cs p).2.logger = p.logger.performs tools changes ∧
      changes.filter (·.isRequest) = cs.filterMap (·.request? p.environment) := by
  induction cs generalizing p with
  | nil => exact ⟨[], rfl, rfl⟩
  | cons c cs ih =>
    obtain ⟨henv, es, hlogger⟩ := p.logger_call tools c
    obtain ⟨changes, hchanges, hrequests⟩ := ih (p.call tools c).2
    refine ⟨(c.request? p.environment).toList ++ es.map .record ++ changes, ?_, ?_⟩
    · rw [Logging.Logger.performs_append, ← hlogger]
      exact hchanges
    · have hrecords : (es.map Logging.Change.record).filter (·.isRequest) = [] := by
        simp [Logging.Change.isRequest]
      rw [List.filter_append, List.filter_append, hrecords, hrequests, henv, List.append_nil,
        List.filterMap_cons]
      cases c <;> rfl

end LoggedSession

namespace Logging.Logger

variable {φ : Type} {tools : Facilities φ} {s t : Logger φ} {directives : Option String}
  {settings : Settings} {foreign : Prop}

variable (tools) in
/-- How a start fares that finds the logger `s` not started yet and leaves it as `t`, where `foreign`
says whether something else asked to receive the events. -/
structure Fares (s : Logger φ) (settings : Settings) (foreign : Prop) (r : Start) (t : Logger φ) :
    Prop where
  initialized_iff : t.initialized = true ↔ ∃ guard, r = .done guard
  guard_eq : ∀ guard, r = .done guard → guard = settings.path.isSome
  done_iff : (∃ guard, r = .done guard) ↔ Acceptable tools s.files settings.path ∧ ¬ foreign
  taken_iff : r = .refused .alreadyReceived ↔ Acceptable tools s.files settings.path ∧ foreign
  unnamed_iff : ∀ p, r = .refused (.notAFilePath p) ↔
    settings.path = some p ∧ Path.splitFile? p = none
  crashed_iff : r = .crashed ↔ (∃ p, settings.path = some p ∧ Path.splitFile? p ≠ none) ∧
    ¬ Acceptable tools s.files settings.path

theorem Consistent.fares (hread : tools.Returns) (hgrants : tools.Exclusive)
    (h : s.Consistent foreign) (hs : s.initialized = false) (directives : Option String)
    (settings : Settings) :
    s.Fares tools settings foreign (s.start tools directives settings).1
      (s.start tools directives settings).2 := by
  have hnone := h.receiver_eq_none_iff hs
  have hstarts := starts_start hread hgrants hs directives settings
  have hdone := hstarts.done_iff
  have htaken := hstarts.taken_iff
  rw [hnone] at hdone
  rw [ne_eq, hnone, Classical.not_not] at htaken
  exact ⟨hstarts.initialized_iff hs, fun _ => hstarts.guard_eq, hdone, htaken, hstarts.unnamed_iff,
    hstarts.crashed_iff⟩

/-- Only a start can make the logger receive the events. -/
theorem start_of_installs {c : Change} (hc : c.Installs tools s) :
    ∃ directives settings, c = .start directives settings := by
  obtain ⟨hnone, filter, json, sink, hr⟩ := hc
  cases c with
  | start directives settings => exact ⟨directives, settings, rfl⟩
  | installForeign =>
    rw [Change.perform, install] at hr
    split at hr
    · cases hr
    · rw [hnone] at hr
      cases hr
  | record e =>
    rw [Change.perform, (record_frame tools s e).1, hnone] at hr
    cases hr
  | replaceFiles files =>
    have hr : s.receiver = some (.logger filter json sink) := hr
    rw [hnone] at hr
    cases hr

/-- **The logger is started at most once.** Take any facilities whose reader of filters returns for
every text and that grant the events of a process once, and any changes from the start of a process,
whatever files and texts of filters there are. If by one of the changes the logger comes to receive the
events, then that is a start, the logger was not started before, it is started from then on, and no
later change does the same; and it is started only so. Starts that come later are done at once and
change nothing, whatever their paths. A start that comes before succeeds iff its path is acceptable and
nothing else asked to receive the events so far, whatever failed; there is a guard iff there is a path.
If it fails, the logger is still not started, and the failure says which of these was the first not to
hold. The calls of a session are such changes. -/
theorem started_at_most_once (tools : Facilities φ) (hread : tools.Returns)
    (hgrants : tools.Exclusive) (files : Files LogFile) (cs : List Change) :
    let s : Logger φ := { files }
    ((∀ before c after, cs = before ++ c :: after → c.Installs tools (s.performs tools before) →
        (∃ directives settings, c = .start directives settings) ∧
        (∀ p, p <+: before → (s.performs tools p).initialized = false) ∧
        (∀ p, p <+: after → (s.performs tools (before ++ c :: p)).initialized = true) ∧
        ∀ during d later, after = during ++ d :: later →
          ¬ d.Installs tools (s.performs tools (before ++ c :: during))) ∧
      ((s.performs tools cs).initialized = true →
        ∃ before c after, cs = before ++ c :: after ∧
          c.Installs tools (s.performs tools before)) ∧
      ∀ directives settings, let u := s.performs tools cs
        let r := (u.start tools directives settings).1
        let t := (u.start tools directives settings).2
        let foreign := .installForeign ∈ cs
        (u.initialized = true → r = .done false ∧ t = u) ∧
        (u.initialized = false → u.Fares tools settings foreign r t ∧
          ((Change.start directives settings).Installs tools u ↔ ∃ guard, r = .done guard))) ∧
    ∀ (calls : List LoggedSession.Call) (p : LoggedSession φ),
      ∃ changes, (LoggedSession.calls tools calls p).2.logger = p.logger.performs tools changes ∧
        changes.filter (·.isRequest) = calls.filterMap (·.request? p.environment) := by
  intro s
  refine ⟨?_, LoggedSession.logger_calls tools⟩
  have hstart : s.Consistent False := ⟨Bool.noConfusion, fun _ => .inl ⟨rfl, id⟩⟩
  refine ⟨?_, fun hs => ?_, fun directives settings => ⟨fun hu => ?_, fun hu => ?_⟩⟩
  · rintro before c after rfl hc
    have hbefore := hstart.performs hread hgrants before
    have hinstalled : (s.performs tools (before ++ [c])).initialized = true := by
      rw [performs_append]
      exact (hbefore.initialized_perform hread hgrants c).mpr (.inr hc)
    have hafter : ∀ p, (s.performs tools (before ++ c :: p)).initialized = true := fun p =>
      hstart.initialized_of_prefix hread hgrants ⟨p, by simp⟩ hinstalled
    refine ⟨start_of_installs hc, fun p hp => ?_, fun p _ => hafter p, fun during d _ _ => ?_⟩
    · refine Bool.eq_false_iff.mpr fun hp' => ?_
      exact hbefore.not_installs (hstart.initialized_of_prefix hread hgrants hp hp') c hc
    · exact (hstart.performs hread hgrants _).not_installs (hafter during) d
  · exact ((hstart.initialized_performs hread hgrants cs).mp hs).resolve_left Bool.false_ne_true
  · have he : (s.performs tools cs).start tools directives settings = _ :=
      start_of_initialized hu directives settings
    exact ⟨congrArg Prod.fst he, congrArg Prod.snd he⟩
  · have hu' : (s.performs tools cs).Consistent (.installForeign ∈ cs) :=
      (hstart.performs hread hgrants cs).congr rfl rfl (by simp)
    have hfares := hu'.fares hread hgrants hu directives settings
    have hinstalls := hu'.initialized_perform hread hgrants (.start directives settings)
    rw [hu] at hinstalls
    exact ⟨hfares, (hinstalls.trans (by simp)).symm.trans hfares.initialized_iff⟩

theorem performs_start (s : Logger φ) (directives : Option String) (settings : Settings) :
    s.performs tools [.start directives settings] = (s.start tools directives settings).2 := rfl

end Logger

/-- Paths without a file name fail first, without and with a filter in the environment, which is
malformed, and then a start with a file succeeds. A start with another file is done at once and leaves
that file away. -/
theorem Logger.started_at_most_once_of_failures :
    let tools := Facilities.usual.returning
    let file (p : String) : Settings := { level := .debug, path := some p }
    let before : List Change := [.start none (file ".."), .start (some "[gc]=loud") (file "..")]
    let cs := before ++ [.start (some "[gc]=loud") (file "logs/b.log")]
    let u := performs tools {} cs
    (Change.start (some "[gc]=loud") (file "logs/b.log")).Installs tools (performs tools {} before) ∧
      (performs tools {} before).initialized = false ∧ u.initialized = true ∧
      (u.start tools none (file "c.log")).1 = .done false ∧
      (u.start tools none (file "c.log")).2 = u ∧
      u.files.list.map (·.1) = ["logs/b.log"] := by
  intro tools file before cs u
  have hread : tools.Returns := Facilities.usual.returns_returning
  have hgrants : tools.Exclusive := Facilities.exclusive_usual
  have hfailed : performs tools {} before = {} := by
    have hname : Path.splitFile? ".." = none := by decide +kernel
    -- what the facilities are plays no part here
    clear_value tools
    have hunnamed (directives : Option String) : start tools {} directives (file "..") = _ :=
      start_of_unnamed hread rfl directives rfl hname
    rw [performs, performs, performs, Change.perform, Change.perform, hunnamed, hunnamed]
  have hcs : u = (start tools {} (some "[gc]=loud") (file "logs/b.log")).2 := by
    rw [show u = performs tools {} (before ++ [.start (some "[gc]=loud") (file "logs/b.log")]) from rfl,
      performs_append, hfailed, performs_start]
  have hu : u.initialized = true := by rw [hcs]; decide +kernel
  obtain ⟨-, -, hthird⟩ := (started_at_most_once tools hread hgrants {} before).1
  have hwaiting : (performs tools {} before).initialized = false := by rw [hfailed]
  obtain ⟨-, hinstalls⟩ := (hthird (some "[gc]=loud") (file "logs/b.log")).2 hwaiting
  obtain ⟨-, -, hlater⟩ := (started_at_most_once tools hread hgrants {} cs).1
  obtain ⟨hr, ht⟩ := (hlater none (file "c.log")).1 hu
  refine ⟨hinstalls.mpr ⟨true, ?_⟩, hwaiting, hu, hr, ht, ?_⟩
  · rw [hfailed]
    decide +kernel
  · rw [hcs]
    decide +kernel

end Logging

end SharedHeap
