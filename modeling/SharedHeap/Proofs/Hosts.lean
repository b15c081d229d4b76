import SharedHeap.Proofs.Departure
import SharedHeap.Proofs.Sweep

/-! # Collecting after hosts

A host gives up holders in its own collection, and the pass comes after that. With several hosts there
may be one pass at the end or a pass after each of them. What an early pass swept would not be live
later either, since hosts only let go, and no live object is reached through it; so both leave the same
registry. -/

namespace SharedHeap

open Program (Runner Session Step Command Answer Reply)

/-! ## Letting go in any order -/

section

variable {α : Type} [Ord α] [Std.TransOrd α] [Std.LawfulEqOrd α] [DecidableEq α]

theorem Bag.getElem?_remove (b : Bag α) (a c : α) :
    (b.remove a).counts[c]? =
      if a = c then b.counts[a]?.bind fun n => if 2 ≤ n then some (n - 1) else none
      else b.counts[c]? := by
  unfold remove
  by_cases h : a = c
  · subst h
    split <;> rename_i hn
    · simp [hn]
    · rename_i n hne
      have hle : ¬ 2 ≤ n := fun hle => hne (n - 2) (by omega)
      simp [hn, hle]
    · simp [hn]
  · split <;> simp [Std.ExtTreeMap.getElem?_insert, Std.ExtTreeMap.getElem?_erase, h]

theorem Bag.remove_comm (b : Bag α) (a c : α) : (b.remove a).remove c = (b.remove c).remove a := by
  by_cases h : a = c
  · rw [h]
  · have hcounts : ((b.remove a).remove c).counts = ((b.remove c).remove a).counts := by
      ext k : 1
      simp only [getElem?_remove]
      by_cases hc : c = k
      · subst hc; simp [h]
      · simp [hc, Ne.symm h]
    cases hl : (b.remove a).remove c
    cases hr : (b.remove c).remove a
    rw [hl, hr] at hcounts
    exact congrArg Bag.mk hcounts

end

namespace Program.Session

/-- The application lets go of the holder with this name, if there is one, and forgets the name. -/
def dropNamed (s : Session) (name : String) : Session :=
  match s.holders[name]? with
  | some x => { s with holders := s.holders.erase name }.update (·.letGo x)
  | none => s

theorem dropNamed_comm (s : Session) (m n : String) :
    (s.dropNamed m).dropNamed n = (s.dropNamed n).dropNamed m := by
  by_cases h : m = n
  · rw [h]
  · have herase : (s.holders.erase m).erase n = (s.holders.erase n).erase m := by
      ext k : 1
      simp only [Std.ExtTreeMap.getElem?_erase]
      split <;> split <;> rfl
    have hm : (s.holders.erase n)[m]? = s.holders[m]? := by
      simp [Std.ExtTreeMap.getElem?_erase, Ne.symm h]
    have hn : (s.holders.erase m)[n]? = s.holders[n]? := by
      simp [Std.ExtTreeMap.getElem?_erase, h]
    unfold dropNamed
    cases hx : s.holders[m]? <;> cases hy : s.holders[n]? <;>
      simp [hx, hy, hm, hn, update, herase, Heap.letGo, Bag.remove_comm]

/-- It makes no difference in which order holders are let go of. -/
theorem dropNamed_perm {names names' : List String} (h : names.Perm names') (s : Session) :
    names.foldl dropNamed s = names'.foldl dropNamed s :=
  h.foldl_eq' (fun m _ n _ s => dropNamed_comm s m n) s

theorem dropNames_perm {hosts hosts' : List (List String)} (h : hosts.Perm hosts') (s : Session) :
    hosts'.flatten.foldl dropNamed s = hosts.flatten.foldl dropNamed s :=
  dropNamed_perm h.flatten.symm s

theorem holders_dropNamed (s : Session) (name k : String) :
    (s.dropNamed name).holders[k]? = if k = name then none else s.holders[k]? := by
  unfold dropNamed
  by_cases hk : k = name
  · subst hk
    cases hx : s.holders[k]? <;> simp [hx, update]
  · cases hx : s.holders[name]? <;> simp [update, hk, Std.ExtTreeMap.getElem?_erase, Ne.symm hk]

theorem holders_dropNames (s : Session) (names : List String) (k : String) :
    (names.foldl dropNamed s).holders[k]? = if k ∈ names then none else s.holders[k]? := by
  induction names generalizing s with
  | nil => simp
  | cons n rest ih =>
    rw [List.foldl_cons, ih, holders_dropNamed]
    by_cases hk : k = n <;> simp [hk]

end Program.Session

/-! ## Heaps that were swept early -/

theorem Registry.eq_of_slot? {r r' : Registry} (h : ∀ k, r.slot? k = r'.slot? k) : r = r' := by
  have hslots : r.slots = r'.slots := by
    ext k : 1
    have hk := h k
    unfold slot? at hk
    cases hr : r.slots[k]? <;> cases hr' : r'.slots[k]? <;> simp_all
  cases r
  cases r'
  exact congrArg Registry.mk hslots

namespace Heap

/-- `v` is `w` but for slots of collector `g` that a cleanup of `w` would take out, and for counters
and reports. -/
structure Thinned (g : CollectorId) (w v : Heap) : Prop where
  objects : v.objects = w.objects
  held : v.held = w.held
  registries : v.registries = w.registries
  queues : v.queues = w.queues
  others : ∀ g', g' ≠ g → v.collector g' = w.collector g'
  stopped : (v.collector g).state = .stopped ↔ (w.collector g).state = .stopped
  slots : ∀ h, v.slot? g h = none ∨ v.slot? g h = w.slot? g h
  kept : ∀ h, w.Keeps g h → v.slot? g h = w.slot? g h

variable {w v : Heap} {g : CollectorId} {c c' : Collector} {h : Handle}

theorem Thinned.refl (g : CollectorId) (w : Heap) : w.Thinned g w :=
  ⟨rfl, rfl, rfl, rfl, fun _ _ => rfl, Iff.rfl, fun _ => .inr rfl, fun _ _ => rfl⟩

theorem registered_iff_slot? : w.Registered g h ↔ (w.slot? g h).isSome = true := by
  rw [slot?, Registry.isSome_slot?]
  rfl

theorem Thinned.registered (ht : w.Thinned g v) (hr : v.Registered g h) : w.Registered g h := by
  rw [registered_iff_slot?] at hr ⊢
  rcases ht.slots h with hnone | hsome
  · rw [hnone] at hr; cases hr
  · rwa [← hsome]

theorem Thinned.registered_of_keeps (ht : w.Thinned g v) (hr : w.Registered g h)
    (hk : w.Keeps g h) : v.Registered g h := by
  rw [registered_iff_slot?] at hr ⊢
  rwa [ht.kept h hk]

theorem Thinned.heldElsewhere (ht : w.Thinned g v) (h : Handle) :
    v.HeldElsewhere g h ↔ w.HeldElsewhere g h := by
  have hothers : (∃ g', g' ≠ g ∧ v.Registered g' h) ↔ ∃ g', g' ≠ g ∧ w.Registered g' h := by
    refine exists_congr fun g' => and_congr_right fun hg => ?_
    rw [Registered, Registered, ht.others g' hg]
  unfold HeldElsewhere heldCount
  rw [hothers, ht.held, ht.registries, ht.queues]

/-- What was swept early was not live, so the same objects are live. -/
theorem Thinned.live (ht : w.Thinned g v) (h : Handle) : v.Live g h ↔ w.Live g h := by
  have hlinked : ∀ a, v.linked a = w.linked a := fun a => by simp only [linked, object, ht.objects]
  constructor
  · intro hl
    induction hl with
    | held hr he => exact .held (ht.registered hr) ((ht.heldElsewhere _).mp he)
    | linked _ hab hr ih => exact .linked ih (hlinked _ ▸ hab) (ht.registered hr)
  · intro hl
    induction hl with
    | held hr he =>
      exact .held (ht.registered_of_keeps hr fun _ => .held hr he) ((ht.heldElsewhere _).mpr he)
    | linked hl hab hr ih =>
      have hb := Live.linked hl hab hr
      exact .linked ih (by rw [hlinked]; exact hab) (ht.registered_of_keeps hr fun _ => hb)

theorem Thinned.keeps (ht : w.Thinned g v) (h : Handle) : v.Keeps g h ↔ w.Keeps g h := by
  unfold Keeps
  rw [ht.live, ne_eq, ht.stopped]

/-- Where something is let go of, nothing becomes live. -/
theorem live_of_letGo {x : Holder} (hl : (w.letGo x).Live g h) : w.Live g h := by
  have helse : ∀ a, (w.letGo x).HeldElsewhere g a → w.HeldElsewhere g a := by
    rintro a (he | he)
    · exact .inl (Nat.lt_of_lt_of_le he (heldCount_letGo_le w x a))
    · exact .inr he
  induction hl with
  | held hr he => exact .held hr (helse _ he)
  | linked _ hab hr ih => exact .linked ih hab hr

theorem Thinned.letGo (ht : w.Thinned g v) (x : Holder) : (w.letGo x).Thinned g (v.letGo x) := by
  refine ⟨ht.objects, ?_, ht.registries, ht.queues, ht.others, ht.stopped, ht.slots, fun h hk => ?_⟩
  · exact congrArg (·.remove x) ht.held
  · exact ht.kept h fun hs => live_of_letGo (hk hs)

theorem Thinned.emit (ht : w.Thinned g v) (e : Event) : w.Thinned g (v.emit e) :=
  ⟨ht.objects, ht.held, ht.registries, ht.queues, ht.others, ht.stopped, ht.slots, ht.kept⟩

theorem Thinned.emit_left (ht : w.Thinned g v) (e : Event) : (w.emit e).Thinned g v :=
  ⟨ht.objects, ht.held, ht.registries, ht.queues, ht.others, ht.stopped, ht.slots,
    fun h hk => ht.kept h fun hs => (live_emit w e g h).mp (hk hs)⟩

/-- An early cleanup takes out nothing that a later one would keep. -/
theorem Thinned.cleanup (ht : w.Thinned g v) (hn : v.Numbered) (hc : v.collectors[g]? = some c) :
    w.Thinned g (v.cleanup g).2 := by
  obtain ⟨hobjects, hheld, hbare, hqueues, -⟩ := cleanup_frame hn hc
  refine ⟨hobjects.trans ht.objects, hheld.trans ht.held, hbare.trans ht.registries,
    hqueues.trans ht.queues, fun g' hg => ?_, ?_, fun h => ?_, fun h hk => ?_⟩
  · rw [collector_cleanup_of_ne hn hc hg]
    exact ht.others g' hg
  · rw [stopped_cleanup_iff hn hc, ← collector_eq hc]
    exact ht.stopped
  · by_cases hk : v.Keeps g h
    · rw [slot?_cleanup_of_keeps hn hc hk]
      exact ht.slots h
    · exact .inl (slot?_cleanup_of_not_keeps hn hc hk)
  · rw [slot?_cleanup_of_keeps hn hc ((ht.keeps h).mpr hk)]
    exact ht.kept h hk

/-- After one more cleanup of both, the registries are the same. -/
theorem Thinned.registry_cleanup (ht : w.Thinned g v) (hn : w.Numbered) (hn' : v.Numbered)
    (hc : w.collectors[g]? = some c) (hc' : v.collectors[g]? = some c') :
    ((v.cleanup g).2.collector g).registry = ((w.cleanup g).2.collector g).registry := by
  refine Registry.eq_of_slot? fun h => ?_
  show (v.cleanup g).2.slot? g h = (w.cleanup g).2.slot? g h
  by_cases hk : w.Keeps g h
  · rw [slot?_cleanup_of_keeps hn hc hk, slot?_cleanup_of_keeps hn' hc' ((ht.keeps h).mpr hk)]
    exact ht.kept h hk
  · rw [slot?_cleanup_of_not_keeps hn hc hk,
      slot?_cleanup_of_not_keeps hn' hc' fun hv => hk ((ht.keeps h).mp hv)]

end Heap

/-! ## Steps that collect -/

namespace Program

/-- The steps of a host that lets go of the holders with these names. -/
def hostBody (name : String) (names : List String) : List Step := names.map fun n => .mk name (.drop n)

/-- The statistics that a step of one or several hosts answers. -/
def Answer.stats? : Answer → Option PassStats
  | .mk (.hosts stats _) _ _ => some stats
  | _ => none

namespace Session

open Heap

/-- No hooks are there, and the collector `g`, which has this name, is free. -/
structure Ready (s : Session) (name : String) (g : CollectorId) : Prop where
  hooks : s.hooks = ∅
  stuck : s.stuck = false
  named : s.collectors[name]? = some g
  numbered : s.heap.Numbered
  lt_length : g < s.heap.collectors.length
  unlocked : (s.heap.collector g).locked = false

variable {s t : Session} {name : String} {g : CollectorId}

theorem Ready.acquire (hr : s.Ready name g) : (s.acquire g).stuck = false := by
  rw [Session.acquire, if_neg (by simp [hr.unlocked])]
  exact hr.stuck

/-- What a step has in hand makes no difference. -/
theorem Ready.within (hr : s.Ready name g) (inUse : List CollectorId) (drops : List DropReport) :
    Session.Ready { s with inUse, drops } name g :=
  ⟨hr.hooks, hr.stuck, hr.named, hr.numbered, hr.lt_length, hr.unlocked⟩

theorem dropNamed_eq (s : Session) (n : String) :
    s.dropNamed n = s ∨
      ∃ x, s.dropNamed n = { s with holders := s.holders.erase n, heap := s.heap.letGo x } := by
  unfold dropNamed
  cases s.holders[n]? with
  | none => exact .inl rfl
  | some x => exact .inr ⟨x, rfl⟩

theorem Ready.dropNamed (hr : s.Ready name g) (n : String) : (s.dropNamed n).Ready name g := by
  obtain ⟨hooks, stuck, named, numbered, lt_length, unlocked⟩ := hr
  rcases dropNamed_eq s n with he | ⟨x, he⟩ <;> rw [he]
  · exact ⟨hooks, stuck, named, numbered, lt_length, unlocked⟩
  · exact ⟨hooks, stuck, named, numbered.opens (.none rfl rfl), lt_length, unlocked⟩

theorem Ready.dropNames (hr : s.Ready name g) (names : List String) :
    (names.foldl Session.dropNamed s).Ready name g := by
  induction names generalizing s with
  | nil => exact hr
  | cons n rest ih => exact ih (hr.dropNamed n)

/-- A step about a collector that keeps its name does what its command says, and nothing else. -/
theorem runStep_eq {command : Command} {reply : Reply} (run : Runner)
    (named : s.collectors[name]? = some g)
    (hp : Session.perform run name g { s with drops := [], inUse := g :: s.inUse } command =
      .ok (reply, t))
    (ht : t.collectors[name]? = some g) :
    s.runStep run (.mk name command) =
      (.mk reply ({ t with inUse := t.inUse.tail }.summary name) t.drops,
        { t with inUse := t.inUse.tail, drops := s.drops }) := by
  have hcollector : ({ s with drops := [] } : Session).collector name = .ok g := by
    simp [Session.collector, named]
  simp only [runStep, hcollector, keeping, hp, ht, if_pos]

theorem dropNames_within (s : Session) (inUse : List CollectorId) (drops : List DropReport)
    (names : List String) :
    names.foldl dropNamed { s with inUse, drops } =
      { names.foldl dropNamed s with inUse, drops } := by
  induction names generalizing s with
  | nil => rfl
  | cons n rest ih =>
    rw [List.foldl_cons, List.foldl_cons, ← ih]
    congr 1
    unfold dropNamed
    cases hx : s.holders[n]? <;> simp [update]

/-- Lets go of the holders with these names, reports that, and collects. -/
def collectAfter (s : Session) (names : List String) (e : Event) (g : CollectorId) :
    PassStats × Session :=
  let w := (names.foldl dropNamed s).heap.emit e
  ((w.cleanup g).1, { names.foldl dropNamed s with heap := (w.cleanup g).2 })

theorem collectors_dropNames (s : Session) (names : List String) :
    (names.foldl dropNamed s).heap.collectors = s.heap.collectors := by
  induction names generalizing s with
  | nil => rfl
  | cons n rest ih =>
    rw [List.foldl_cons, ih]
    rcases dropNamed_eq s n with he | ⟨x, he⟩ <;> rw [he]
    rfl

/-- The heap that the cleanup starts from, and its collector. -/
theorem Ready.emit (hr : s.Ready name g) (names : List String) (e : Event) :
    ((names.foldl Session.dropNamed s).heap.emit e).Numbered ∧
      ∃ c, ((names.foldl Session.dropNamed s).heap.emit e).collectors[g]? = some c ∧
        s.heap.collectors[g]? = some c := by
  have hc := List.getElem?_eq_getElem hr.lt_length
  refine ⟨(hr.dropNames names).numbered.opens (.none rfl rfl), _, ?_, hc⟩
  rw [← hc, ← collectors_dropNames s names]
  rfl

theorem Ready.collectAfter (hr : s.Ready name g) (names : List String) (e : Event) :
    (s.collectAfter names e g).2.Ready name g := by
  obtain ⟨hn, c, hc, hc'⟩ := hr.emit names e
  obtain ⟨hooks, stuck, named, -, lt_length, -⟩ := hr.dropNames names
  refine ⟨hooks, stuck, named, hn.cleanup hc, ?_, ?_⟩
  · rw [Session.collectAfter, (cleanup_frame hn hc).2.2.2.2]
    exact lt_length
  · rw [Session.collectAfter, locked_cleanup hn hc, ← collector_eq hc']
    exact hr.unlocked

/-! ## What the steps do -/

/-- A step that drops a holder. -/
theorem runStep_drop (run : Runner) (hr : s.Ready name g) (n : String) :
    (s.runStep run (.mk name (.drop n))).2 = s.dropNamed n := by
  unfold dropNamed
  cases hx : s.holders[n]? with
  | none =>
    have hcollector : ({ s with drops := [] } : Session).collector name = .ok g := by
      simp [Session.collector, hr.named]
    simp [runStep, hcollector, keeping, perform, holder, hx, hr.named]
  | some x =>
    have hp : Session.perform run name g { s with drops := [], inUse := g :: s.inUse } (.drop n) =
        .ok (.nothing, Session.dropHolder run x
          { s with drops := [], inUse := g :: s.inUse, holders := s.holders.erase n }) := by
      simp only [perform, holder, hx]
      rfl
    have hready : Session.Ready
        { s with drops := [], inUse := g :: s.inUse, holders := s.holders.erase n } name g :=
      ⟨hr.hooks, hr.stuck, hr.named, hr.numbered, hr.lt_length, hr.unlocked⟩
    rw [dropHolder_of_no_hooks run hready.hooks] at hp
    rw [runStep_eq run hr.named hp hr.named]
    rfl

theorem runSteps_hostBody (hr : s.Ready name g) (names : List String) (depth : Nat)
    (hd : names.length ≤ depth) :
    (runSteps depth (hostBody name names) s).2 = names.foldl dropNamed s := by
  induction names generalizing s depth with
  | nil => cases depth <;> rfl
  | cons n rest ih =>
    obtain ⟨depth, rfl⟩ : ∃ d, depth = d + 1 := ⟨depth - 1, by simp at hd; omega⟩
    have hdrop := runStep_drop (runSteps depth) hr n
    have hrest := ih (hr.dropNamed n) depth (by simpa using hd)
    simp only [hostBody, List.map_cons, runSteps, hr.stuck, Bool.false_eq_true, if_false, hdrop]
    exact hrest

theorem runHosts_hostBodies (hr : s.Ready name g) (hosts : List (List String)) (depth : Nat)
    (hd : ∀ names ∈ hosts, names.length ≤ depth) :
    (s.runHosts (runSteps depth) (hosts.map (hostBody name))).2 =
      hosts.flatten.foldl dropNamed s := by
  induction hosts generalizing s with
  | nil => rfl
  | cons names rest ih =>
    have hbody := runSteps_hostBody hr names depth (hd names List.mem_cons_self)
    have hrest := ih (hr.dropNames names) fun ns hns => hd ns (List.mem_cons_of_mem names hns)
    rw [List.flatten_cons, List.foldl_append, ← hrest, ← hbody]
    rfl

/-- What is done within a step that collects, and what it leaves. -/
theorem runStep_collect (hr : s.Ready name g) {command : Command} {names : List String} {e : Event}
    {answers : List (List Answer)} {run : Runner} {t : Session}
    (ht : t = names.foldl dropNamed { s with drops := [], inUse := g :: s.inUse })
    (hp : Session.perform run name g { s with drops := [], inUse := g :: s.inUse } command =
      .ok (.hosts ((t.update (·.emit e)).cleanup run g).1 answers,
        ((t.update (·.emit e)).cleanup run g).2)) :
    (s.runStep run (.mk name command)).1.stats? = some (s.collectAfter names e g).1 ∧
      (s.runStep run (.mk name command)).2 = (s.collectAfter names e g).2 := by
  rw [dropNames_within s (g :: s.inUse) [] names] at ht
  have hready := (hr.dropNames names).within (g :: s.inUse) []
  have hready' : (t.update (·.emit e)).Ready name g := by
    rw [ht]
    exact ⟨hready.hooks, hready.stuck, hready.named, hready.numbered.opens (.none rfl rfl),
      hready.lt_length, hready.unlocked⟩
  rw [cleanup_eq run hready'.hooks hready'.acquire] at hp
  have hsame := dropNames_within s s.inUse s.drops names
  rw [runStep_eq run hr.named hp hready'.named, ht, collectAfter]
  generalize names.foldl dropNamed s = u at hsame ⊢
  have hinUse : u.inUse = s.inUse := by rw [hsame]
  have hdrops : u.drops = s.drops := by rw [hsame]
  rw [← hinUse, ← hdrops]
  exact ⟨rfl, rfl⟩

/-- A step that collects after one host. -/
theorem runStep_host (hr : s.Ready name g) (names : List String) (depth : Nat)
    (hd : names.length ≤ depth) :
    let answer := s.runStep (runSteps depth) (.mk name (.host (hostBody name names)))
    answer.1.stats? = some (s.collectAfter names .hostDone g).1 ∧
      answer.2 = (s.collectAfter names .hostDone g).2 :=
  runStep_collect hr (runSteps_hostBody (hr.within (g :: s.inUse) []) names depth hd) rfl

/-- A step that collects after several hosts. -/
theorem runStep_hosts (hr : s.Ready name g) (hosts : List (List String)) (depth : Nat)
    (hd : ∀ names ∈ hosts, names.length ≤ depth) :
    let answer := s.runStep (runSteps depth) (.mk name (.hosts (hosts.map (hostBody name))))
    let t := s.collectAfter hosts.flatten (.hostsDone hosts.length) g
    answer.1.stats? = some t.1 ∧ answer.2 = t.2 := by
  have hp := runHosts_hostBodies (hr.within (g :: s.inUse) []) hosts depth hd
  apply runStep_collect hr hp
  simp only [perform, List.length_map]
  rfl

theorem runSteps_hosts (hr : s.Ready name g) (hosts : List (List String)) (depth : Nat)
    (hd : ∀ names ∈ hosts, names.length ≤ depth) :
    let answers := runSteps (depth + 1) [.mk name (.hosts (hosts.map (hostBody name)))] s
    let t := s.collectAfter hosts.flatten (.hostsDone hosts.length) g
    answers.1.map Answer.stats? = [some t.1] ∧ answers.2 = t.2 := by
  obtain ⟨hstats, hstep⟩ := runStep_hosts hr hosts depth hd
  have hend : ∀ t, runSteps depth [] t = ([], t) := fun t => by cases depth <;> rfl
  simp only [runSteps, hr.stuck, Bool.false_eq_true, if_false, hend, List.map_cons, List.map_nil]
  exact ⟨congrArg (fun x => [x]) hstats, hstep⟩

/-- A pass after each host. -/
def collectInTurn (g : CollectorId) : List (List String) → Session → List PassStats × Session
  | [], s => ([], s)
  | names :: rest, s =>
    let first := s.collectAfter names .hostDone g
    let others := collectInTurn g rest first.2
    (first.1 :: others.1, others.2)

theorem runSteps_host (hr : s.Ready name g) (hosts : List (List String)) (depth : Nat)
    (hd : ∀ names ∈ hosts, names.length + hosts.length ≤ depth) :
    let answers := runSteps depth (hosts.map fun names => .mk name (.host (hostBody name names))) s
    answers.1.map Answer.stats? = (collectInTurn g hosts s).1.map some ∧
      answers.2 = (collectInTurn g hosts s).2 := by
  induction hosts generalizing s depth with
  | nil => cases depth <;> exact ⟨rfl, rfl⟩
  | cons names rest ih =>
    have hnames := hd names List.mem_cons_self
    rw [List.length_cons] at hnames
    obtain ⟨depth, rfl⟩ : ∃ d, depth = d + 1 := ⟨depth - 1, by omega⟩
    obtain ⟨hstats, hstep⟩ := runStep_host hr names depth (by omega)
    obtain ⟨hrest, hlast⟩ := ih (hr.collectAfter names .hostDone) depth fun ns hns => by
      have := hd ns (List.mem_cons_of_mem names hns)
      rw [List.length_cons] at this
      omega
    simp only [List.map_cons, runSteps, hr.stuck, Bool.false_eq_true, if_false, hstep, hstats, hrest]
    exact ⟨rfl, hlast⟩

/-! ## One pass or several -/

/-- `t` is `s` but for early sweeps of collector `g`. -/
structure Thinned (g : CollectorId) (s t : Session) : Prop where
  holders : t.holders = s.holders
  heap : s.heap.Thinned g t.heap

theorem Thinned.dropNamed (ht : s.Thinned g t) (n : String) :
    (s.dropNamed n).Thinned g (t.dropNamed n) := by
  unfold Session.dropNamed
  rw [ht.holders]
  cases s.holders[n]? with
  | none => exact ht
  | some x => exact ⟨rfl, ht.heap.letGo x⟩

theorem Thinned.dropNames (ht : s.Thinned g t) (names : List String) :
    (names.foldl Session.dropNamed s).Thinned g (names.foldl Session.dropNamed t) := by
  induction names generalizing s t with
  | nil => exact ht
  | cons n rest ih => exact ih (ht.dropNamed n)

theorem Thinned.collectAfter (ht : s.Thinned g t) (hr : t.Ready name g) (names : List String)
    (e : Event) : (names.foldl Session.dropNamed s).Thinned g (t.collectAfter names e g).2 := by
  obtain ⟨hn, c, hc, -⟩ := hr.emit names e
  have hdrop := ht.dropNames names
  exact ⟨hdrop.holders, (hdrop.heap.emit e).cleanup hn hc⟩

theorem Thinned.collectInTurn (ht : s.Thinned g t) (hr : t.Ready name g)
    (hosts : List (List String)) :
    (hosts.flatten.foldl Session.dropNamed s).Thinned g (collectInTurn g hosts t).2 := by
  induction hosts generalizing s t with
  | nil => exact ht
  | cons names rest ih =>
    rw [List.flatten_cons, List.foldl_append]
    exact ih (ht.collectAfter hr names .hostDone) (hr.collectAfter names .hostDone)

/-- A pass after each of some hosts leaves what one pass after all of them leaves. -/
theorem registry_collectInTurn (hs : s.Ready name g) (hr : t.Ready name g) (ht : s.Thinned g t)
    (names : List String) (rest : List (List String)) (e : Event) :
    ((collectInTurn g (names :: rest) t).2.heap.collector g).registry =
      ((s.collectAfter (names :: rest).flatten e g).2.heap.collector g).registry := by
  induction rest generalizing s t names with
  | nil =>
    obtain ⟨hn, c, hc, -⟩ := hs.emit [names].flatten e
    obtain ⟨hn', c', hc', -⟩ := hr.emit names .hostDone
    have hdrop := (ht.dropNames names).heap
    rw [List.flatten_singleton] at *
    exact ((hdrop.emit .hostDone).emit_left e).registry_cleanup hn hn' hc hc'
  | cons names' rest ih =>
    have hnext := ih (hs.dropNames names) (hr.collectAfter names .hostDone)
      (ht.collectAfter hr names .hostDone) names'
    refine hnext.trans ?_
    rw [List.flatten_cons, List.flatten_cons, List.flatten_cons, Session.collectAfter,
      Session.collectAfter, List.foldl_append (l := names)]

/-- Drops take nothing out of a registry, so all that left it was swept. -/
theorem size_collectAfter (hr : s.Ready name g) (names : List String) (e : Event) :
    (s.collectAfter names e g).1.swept +
        ((s.collectAfter names e g).2.heap.collector g).registry.size =
      (s.heap.collector g).registry.size := by
  obtain ⟨hn, c, hc, hc'⟩ := hr.emit names e
  rw [collector_eq hc']
  exact size_cleanup hn hc

/-- A stopped collector stays as it is, whatever is dropped. -/
theorem collector_collectAfter_of_stopped (hr : s.Ready name g)
    (hs : (s.heap.collector g).state = .stopped) (names : List String) (e : Event) :
    (s.collectAfter names e g).2.heap.collector g = s.heap.collector g := by
  obtain ⟨hn, c, hc, hc'⟩ := hr.emit names e
  rw [collector_eq hc'] at hs ⊢
  exact collector_cleanup_of_stopped hn hc hs

theorem collector_collectInTurn_of_stopped (hr : s.Ready name g)
    (hs : (s.heap.collector g).state = .stopped) (hosts : List (List String)) :
    (collectInTurn g hosts s).2.heap.collector g = s.heap.collector g := by
  induction hosts generalizing s with
  | nil => rfl
  | cons names rest ih =>
    have hfirst := collector_collectAfter_of_stopped hr hs names .hostDone
    exact (ih (hr.collectAfter names .hostDone) (by rw [hfirst]; exact hs)).trans hfirst

theorem size_collectInTurn (hr : s.Ready name g) (hosts : List (List String)) :
    sweptBy (collectInTurn g hosts s).1 + ((collectInTurn g hosts s).2.heap.collector g).registry.size =
      (s.heap.collector g).registry.size := by
  induction hosts generalizing s with
  | nil => exact Nat.zero_add _
  | cons names rest ih =>
    have hfirst := size_collectAfter hr names .hostDone
    have hrest := ih (hr.collectAfter names .hostDone)
    rw [← hrest, ← Nat.add_assoc] at hfirst
    exact hfirst

theorem length_collectInTurn (g : CollectorId) (hosts : List (List String)) (s : Session) :
    (collectInTurn g hosts s).1.length = hosts.length := by
  induction hosts generalizing s with
  | nil => rfl
  | cons names rest ih => exact congrArg (· + 1) (ih _)

/-- **Hosts may collect in any order and in any batches.** Let every host let go of holders that have
names. Then one pass after all hosts comes to the same session and the same statistics in whatever
order they are. If there is a host at all, passes after each of them leave the same registry, and
together they sweep as much. Either way the named holders are gone, and nothing else that the
application has. A stopped collector stays as it is. -/
theorem hosts_collect (depth : Nat) (s : Session) (name : String) (g : CollectorId)
    (hosts : List (List String)) (hr : s.Ready name g)
    (hd : hosts.flatten.length + hosts.length < depth) :
    let atOnce (hosts : List (List String)) :=
      runSteps depth [.mk name (.hosts (hosts.map (hostBody name)))] s
    let inTurn := runSteps depth (hosts.map fun names => .mk name (.host (hostBody name names))) s
    let dropped := hosts.flatten.foldl dropNamed s
    ∃ (pass : PassStats) (passes : List PassStats),
      (∀ hosts', hosts.Perm hosts' → (atOnce hosts').2 = (atOnce hosts).2 ∧
        (atOnce hosts').1.map Answer.stats? = [some pass]) ∧
      inTurn.1.map Answer.stats? = passes.map some ∧ passes.length = hosts.length ∧
      (hosts ≠ [] →
        (inTurn.2.heap.collector g).registry = ((atOnce hosts).2.heap.collector g).registry ∧
          sweptBy passes = pass.swept) ∧
      ∀ last ∈ [inTurn.2, (atOnce hosts).2],
        last.holders = dropped.holders ∧ last.heap.held = dropped.heap.held ∧
          (∀ n ∈ hosts.flatten, last.holders[n]? = none) ∧
          ((s.heap.collector g).state = .stopped → last.heap.collector g = s.heap.collector g) := by
  intro atOnce inTurn dropped
  obtain ⟨depth, rfl⟩ : ∃ d, depth = d + 1 := ⟨depth - 1, by omega⟩
  have hle : ∀ names ∈ hosts, names.length ≤ hosts.flatten.length := fun names hn =>
    (List.sublist_flatten_of_mem hn).length_le
  obtain ⟨hstats, hlast⟩ := runSteps_host hr hosts (depth + 1) fun names hn => by
    have := hle names hn
    omega
  have honce : ∀ hosts', hosts.Perm hosts' →
      (atOnce hosts').1.map Answer.stats? =
          [some (s.collectAfter hosts.flatten (.hostsDone hosts.length) g).1] ∧
        (atOnce hosts').2 = (s.collectAfter hosts.flatten (.hostsDone hosts.length) g).2 := by
    intro hosts' hp
    obtain ⟨hstats, hlast⟩ := runSteps_hosts hr hosts' depth fun names hn => by
      have := hle names (hp.mem_iff.mpr hn)
      omega
    rw [collectAfter, dropNames_perm hp, ← hp.length_eq] at hstats hlast
    exact ⟨hstats, hlast⟩
  obtain ⟨-, honce'⟩ := honce hosts (.refl _)
  have hself : s.Thinned g s := ⟨rfl, .refl g s.heap⟩
  have hsize := size_collectInTurn hr hosts
  have hsize' := size_collectAfter hr hosts.flatten (.hostsDone hosts.length)
  refine ⟨_, (collectInTurn g hosts s).1, fun hosts' hp => ⟨?_, (honce hosts' hp).1⟩, hstats,
    length_collectInTurn g hosts s, fun hne => ?_, fun last hmem => ?_⟩
  · rw [(honce hosts' hp).2, honce']
  · obtain ⟨names, rest, rfl⟩ := List.exists_cons_of_ne_nil hne
    have hregistry := registry_collectInTurn hr hr hself names rest
      (.hostsDone (names :: rest).length)
    rw [hregistry, ← hsize', Nat.add_right_cancel_iff] at hsize
    refine ⟨?_, hsize⟩
    rw [honce', ← hregistry]
    exact congrArg (fun t : Session => (t.heap.collector g).registry) hlast
  · obtain ⟨ht, hstopped⟩ : dropped.Thinned g last ∧
        ((s.heap.collector g).state = .stopped → last.heap.collector g = s.heap.collector g) := by
      rcases List.mem_pair.mp hmem with rfl | rfl
      · rw [hlast]
        exact ⟨hself.collectInTurn hr hosts, fun hs => collector_collectInTurn_of_stopped hr hs hosts⟩
      · rw [honce']
        exact ⟨hself.collectAfter hr hosts.flatten _,
          fun hs => collector_collectAfter_of_stopped hr hs _ _⟩
    refine ⟨ht.holders, ht.heap.held, fun n hn => ?_, hstopped⟩
    rw [ht.holders, holders_dropNames, if_pos hn]

/-- Two objects that link to each other, each held by another host. The pass after the first host
sweeps nothing, and the one after the second sweeps both, like one pass after the two hosts. -/
theorem hosts_collect_of_ring :
    let make (n : String) : Step := .mk "gc" (.create (.fresh .node []) none (some n))
    let s := (runSteps 9 [make "a", make "b", .mk "gc" (.link "a" (.named "b")),
      .mk "gc" (.link "b" (.named "a"))] (.start "gc" (.withStep 9))).2
    let hosts := [["a"], ["b"]]
    let atOnce := runSteps 9 [.mk "gc" (.hosts (hosts.map (hostBody "gc")))] s
    let inTurn := runSteps 9 (hosts.map fun names => .mk "gc" (.host (hostBody "gc" names))) s
    s.Ready "gc" 0 ∧ atOnce.1.map Answer.stats? = [some ⟨2, 0, 2⟩] ∧
      inTurn.1.map Answer.stats? = [some ⟨2, 2, 0⟩, some ⟨2, 0, 2⟩] ∧
      (inTurn.2.heap.collector 0).registry = (atOnce.2.heap.collector 0).registry ∧
      ∃ passes, inTurn.1.map Answer.stats? = passes.map some ∧ sweptBy passes = 2 := by
  intro make s hosts atOnce inTurn
  have hr : s.Ready "gc" 0 := by
    refine ⟨Std.ExtTreeMap.eq_empty_iff_size_eq_zero.mpr ?_, ?_, ?_, ⟨?_, ?_⟩, ?_, ?_⟩
    all_goals decide +kernel
  obtain ⟨pass, passes, honce, hstats, -, hboth, -⟩ := hosts_collect 9 s "gc" 0 hosts hr (by decide)
  have hatOnce : atOnce.1.map Answer.stats? = [some ⟨2, 0, 2⟩] := by decide +kernel
  obtain rfl : pass = ⟨2, 0, 2⟩ := by
    have hpass := (honce hosts (.refl _)).2.symm.trans hatOnce
    simpa using hpass
  obtain ⟨hregistry, hswept⟩ := hboth (List.cons_ne_nil _ _)
  refine ⟨hr, hatOnce, by decide +kernel, ?_, passes, hstats, hswept⟩
  rw [hregistry]

/-- Where there is no host, the one pass runs all the same, and there is no other pass. So with an
object that nobody holds the registries differ. -/
theorem hosts_collect_of_no_hosts :
    let s := (runSteps 9 [.mk "gc" (.create (.fresh .node []) none (some "a")),
      .mk "gc" (.drop "a")] (.start "gc" (.withStep 9))).2
    let hosts : List (List String) := []
    let atOnce := runSteps 9 [.mk "gc" (.hosts (hosts.map (hostBody "gc")))] s
    let inTurn := runSteps 9 (hosts.map fun names => .mk "gc" (.host (hostBody "gc" names))) s
    s.Ready "gc" 0 ∧ atOnce.1.map Answer.stats? = [some ⟨1, 0, 1⟩] ∧
      inTurn.1.map Answer.stats? = [] ∧
      (inTurn.2.heap.collector 0).registry ≠ (atOnce.2.heap.collector 0).registry := by
  intro s hosts atOnce inTurn
  have hr : s.Ready "gc" 0 := by
    refine ⟨Std.ExtTreeMap.eq_empty_iff_size_eq_zero.mpr ?_, ?_, ?_, ⟨?_, ?_⟩, ?_, ?_⟩
    all_goals decide +kernel
  refine ⟨hr, by decide +kernel, by decide +kernel, fun he => ?_⟩
  have hsize : (inTurn.2.heap.collector 0).registry.size ≠
      (atOnce.2.heap.collector 0).registry.size := by decide +kernel
  exact hsize (congrArg Registry.size he)

end Session

end Program

end SharedHeap
