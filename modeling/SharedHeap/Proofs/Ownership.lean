import SharedHeap.Proofs.Nesting
import SharedHeap.Proofs.Occurrences
import SharedHeap.Program.Run

/-! # What is in hand

The application never lets go of a holder that it needs later: it has one for each of its names, and
one for each that a step in progress has in hand while initialisers, hosts and hooks run within it.
Likewise the open queues are those that steps in progress work at, and whatever a step does within
them leaves them as they were. No collector is given up that a step in progress is about, and no hook
goes away before the last whole holder of its object. -/

namespace SharedHeap

namespace Program

/-! ## Programs without threads -/

mutual

/-- The step starts no threads. -/
def Step.alone : Step → Bool
  | .mk _ c => c.alone

def Command.alone : Command → Bool
  | .create source init _ => source.alone && (match init with | some ss => alone ss | none => true)
  | .host ss => alone ss
  | .hosts bodies => bodiesAlone bodies
  | .threads _ _ _ => false
  | .track _ ss => alone ss
  | .make _ ss _ => alone ss
  | _ => true

def Source.alone : Source → Bool
  | .fresh _ ss => alone ss
  | .again _ => true

def alone : List Step → Bool
  | [] => true
  | s :: ss => s.alone && alone ss

def bodiesAlone : List (List Step) → Bool
  | [] => true
  | b :: bs => alone b && bodiesAlone bs

end

/-! ## What is in hand -/

/-- The bag has the holders in the list, and besides them as many of each as `n` says. -/
def Covers (b : Bag Holder) (xs : List Holder) (n : Holder → Nat) : Prop :=
  ∀ x, xs.count x + n x ≤ b.count x

section

variable {b : Bag Holder} {xs ys : List Holder} {n : Holder → Nat} {x : Holder}

theorem Covers.add (h : Covers b xs n) (x : Holder) : Covers (b.add x) (x :: xs) n := by
  intro y
  have hle := h y
  rw [List.count_cons, Bag.count_add]
  simp only [beq_iff_eq]
  split <;> omega

theorem Covers.remove (h : Covers b (x :: xs) n) : Covers (b.remove x) xs n := by
  intro y
  have hle := h y
  rw [List.count_cons] at hle
  simp only [beq_iff_eq] at hle
  rw [Bag.count_remove]
  split
  · rename_i he
    rw [if_pos he] at hle
    omega
  · rename_i he
    rw [if_neg he] at hle
    omega

theorem Covers.tail (h : Covers b (x :: xs) n) : Covers b xs n := by
  intro y
  have hle := h y
  rw [List.count_cons] at hle
  omega

theorem Covers.perm (h : Covers b xs n) (hp : xs.Perm ys) : Covers b ys n :=
  fun y => hp.count_eq y ▸ h y

theorem Covers.count_pos (h : Covers b xs n) (hx : x ∈ xs) : 0 < b.count x := by
  have hcount := List.count_pos_iff.mpr hx
  have hle := h x
  omega

end

/-- What the steps in progress have: holders, the collectors that they are about, and the open queues.
It is also said whether no threads are started. -/
structure Hand where
  holders : List Holder
  /-- Holders that nobody lets go of meanwhile. -/
  kept : List Holder
  inUse : List CollectorId
  queues : List ReleaseQueue
  alone : Prop

/-- Further holders are taken in hand. -/
def Hand.more (F : Hand) (xs : List Holder) : Hand := { F with holders := xs ++ F.holders }

/-- While the steps in progress are about these collectors, they open a queue. -/
def Hand.opened (F : Hand) (p : ReleaseQueue) : Hand := { F with queues := p :: F.queues }

def Hand.using (F : Hand) (g : CollectorId) : Hand := { F with inUse := g :: F.inUse }

/-- A further holder is kept. -/
def Hand.keep (F : Hand) (x : Holder) : Hand := { F with kept := x :: F.kept }

/-- With `G` in hand steps are bound by all that binds them with `F` in hand. -/
structure Hand.Within (F G : Hand) : Prop where
  alone : F.alone → G.alone
  kept : G.kept = F.kept
  inUse : F.inUse ⊆ G.inUse

theorem Hand.Within.trans {F G H : Hand} (h : F.Within G) (h' : G.Within H) : F.Within H :=
  ⟨fun ha => h'.alone (h.alone ha), h'.kept.trans h.kept, fun _ hg => h'.inUse (h.inUse hg)⟩

/-- Only holders and queues differ. -/
theorem Hand.within (F : Hand) (xs : List Holder) (qs : List ReleaseQueue) :
    F.Within { F with holders := xs, queues := qs } := ⟨id, rfl, fun _ hg => hg⟩

end Program

namespace Heap

theorem cloneable_of_count {w : Heap} {x : Holder} (hx : 0 < w.held.count x) : w.Cloneable x := by
  obtain ⟨h, v⟩ := x
  cases v with
  | whole => exact .inl hx
  | base => exact .inl (Nat.add_pos_right _ hx)

end Heap

namespace Program

variable {name : String} {x y : Holder}

namespace Session

variable {s t u : Session} {F G H : Hand} {g : CollectorId} {a : Action} {os ps : List Operation}

/-- How many names hold `x`. -/
def named (s : Session) (x : Holder) : Nat := occurrences s.holders x

/-- How many holders the names have and are kept. -/
def needs (s : Session) (F : Hand) (x : Holder) : Nat := s.named x + F.kept.count x

/-- The open queues are those in hand, and the locks that they give back are those of collectors that
steps in progress are about. -/
structure InOrder (s : Session) (F : Hand) : Prop where
  sound : s.heap.Sound
  queues : s.heap.queues = F.queues
  inUse : s.inUse = F.inUse
  named_lt : ∀ (name : String) g, s.collectors[name]? = some g → g < s.heap.collectors.length
  inUse_lt : ∀ g ∈ F.inUse, g < s.heap.collectors.length
  unlocks : ∀ p ∈ F.queues, ∀ g, p.unlocks g = true → g ∈ F.inUse

/-- The application has a holder for each of its names and for each in hand. -/
structure Owns (s : Session) (F : Hand) : Prop where
  covers : Covers s.heap.held F.holders (s.needs F)
  inOrder : s.stuck = false → s.InOrder F
  alone : F.alone → ∀ (h : Handle) (hook : Hook), s.hooks[h]? = some hook →
    Program.alone hook.steps = true

/-- What became of the hook of `h` while `s` became `t` by these actions: it is there as before, or it
ran, which takes that the object had no whole holder left, or `h` was only given out by them. -/
def KeepsHook (s t : Session) (as : List Action) (h : Handle) : Prop :=
  t.hooks[h]? = s.hooks[h]? ∨
    (t.hooks[h]? = none ∧ ∃ p, p <+: as ∧ (s.heap.performs p).wholeCount h = 0) ∨
    ∃ n, s.heap.allocated ≤ n ∧ n < t.heap.allocated ∧ h = .fresh n

/-- By these operations `s` becomes `t`. Unless that gets stuck they are those of a single thread; if
it gets stuck, then where some lock is held. -/
structure Leads (s : Session) (F : Hand) (t : Session) (os : List Operation) : Prop where
  sequential : s.heap.Sequential os
  operates : s.heap.operates os = t.heap
  stuck : s.stuck = true → t.stuck = true
  orderly : t.stuck = false → s.heap.Orderly (s.heap.actionsOf os)
  blocked : s.stuck = false → t.stuck = true → ∃ as, as <+: s.heap.actionsOf os ∧
    s.heap.Orderly as ∧ ∃ g, ((s.heap.performs as).collector g).locked = true
  announces : F.alone → s.heap.Each Action.Announces (s.heap.actionsOf os)
  keeps : ∀ p, p <+: s.heap.actionsOf os → ∀ x, F.kept.count x ≤ (s.heap.performs p).held.count x
  spares : ∀ g ∈ F.inUse, .retire g ∉ s.heap.actionsOf os
  hooks : ∀ h, s.KeepsHook t (s.heap.actionsOf os) h

/-- With `F` in hand, operations lead from `s` to `t`, and then `G` is in hand. -/
def Goes (s : Session) (F : Hand) (t : Session) (G : Hand) : Prop :=
  s.Owns F → (∃ os, s.Leads F t os) ∧ t.Owns G ∧ F.Within G

theorem InOrder.congr (h : s.InOrder F) (hheap : t.heap = s.heap) (hinUse : t.inUse = s.inUse)
    (hcollectors : t.collectors = s.collectors) (hG : G.inUse = F.inUse ∧ G.queues = F.queues) :
    t.InOrder G := by
  obtain ⟨hsound, hqueues, hin, hnamed, hlt, hunlocks⟩ := h
  obtain ⟨hGin, hGqueues⟩ := hG
  refine ⟨hheap ▸ hsound, ?_, ?_, ?_, ?_, ?_⟩
  · rw [hheap, hGqueues, hqueues]
  · rw [hinUse, hGin, hin]
  · rw [hheap, hcollectors]
    exact hnamed
  · rw [hheap, hGin]
    exact hlt
  · rw [hGqueues, hGin]
    exact hunlocks

theorem Owns.cloneable (ho : s.Owns F) (hx : x ∈ F.holders) : s.heap.Cloneable x :=
  Heap.cloneable_of_count (ho.covers.count_pos hx)

theorem Owns.count_of_named (ho : s.Owns F) (hx : s.holders[name]? = some x) :
    0 < s.heap.held.count x := by
  have hpos : 0 < s.named x := occurrences_pos hx
  have hle : F.holders.count x + (s.named x + F.kept.count x) ≤ _ := ho.covers x
  omega

theorem Owns.kept_le (ho : s.Owns F) (x : Holder) : F.kept.count x ≤ s.heap.held.count x := by
  have hle : F.holders.count x + (s.named x + F.kept.count x) ≤ _ := ho.covers x
  omega

theorem KeepsHook.trans {as bs : List Action} {h : Handle} (h₁ : s.KeepsHook t as h)
    (h₂ : t.KeepsHook u bs h) (ht : s.heap.performs as = t.heap)
    (hu : t.heap.allocated ≤ u.heap.allocated) : s.KeepsHook u (as ++ bs) h := by
  have hs : s.heap.allocated ≤ t.heap.allocated := ht ▸ Heap.allocated_le_performs s.heap as
  rcases h₂ with hk | ⟨hn, p, hp, hw⟩ | ⟨n, hle, hlt, rfl⟩
  · rcases h₁ with hk' | ⟨hn, p, hp, hw⟩ | ⟨n, hle, hlt, rfl⟩
    · exact .inl (hk.trans hk')
    · exact .inr (.inl ⟨hk.trans hn, p, hp.trans (List.prefix_append as bs), hw⟩)
    · exact .inr (.inr ⟨n, hle, Nat.lt_of_lt_of_le hlt hu, rfl⟩)
  · refine .inr (.inl ⟨hn, as ++ p, (List.prefix_append_right_inj as).mpr hp, ?_⟩)
    rw [Heap.performs_append, ht, hw]
  · exact .inr (.inr ⟨n, Nat.le_trans hs hle, hlt, rfl⟩)

/-- A prefix of two runs in a row ends in the first or in the second. -/
theorem prefix_append_cases {α : Type} {p l l' : List α} (hp : p <+: l ++ l') :
    p <+: l ∨ ∃ p', p' <+: l' ∧ p = l ++ p' := by
  obtain ⟨rest, he⟩ := hp
  rcases List.append_eq_append_iff.mp he with ⟨m, rfl, -⟩ | ⟨m, rfl, rfl⟩
  · exact .inl (List.prefix_append p m)
  · exact .inr ⟨m, List.prefix_append m rest, rfl⟩

theorem Leads.performs (h : s.Leads F t os) : s.heap.performs (s.heap.actionsOf os) = t.heap := by
  rw [Heap.performs_actionsOf, h.operates]

theorem Leads.allocated_le (h : s.Leads F t os) : s.heap.allocated ≤ t.heap.allocated :=
  h.performs ▸ Heap.allocated_le_performs s.heap _

theorem Leads.trans (h : s.Leads F t os) (h' : t.Leads G u ps) (hw : F.Within G) :
    s.Leads F u (os ++ ps) := by
  have hactions : s.heap.actionsOf (os ++ ps) = s.heap.actionsOf os ++ t.heap.actionsOf ps := by
    rw [Heap.actionsOf_append, h.operates]
  have hperforms := h.performs
  refine ⟨?_, ?_, fun hs => h'.stuck (h.stuck hs), fun hu => ?_, fun hs hu => ?_, fun hF => ?_,
    fun p hp x => ?_, fun g hg => ?_, fun k => ?_⟩
  · rw [Heap.sequential_append, h.operates]
    exact ⟨h.sequential, h'.sequential⟩
  · rw [Heap.operates_append, h.operates, h'.operates]
  · have ht : t.stuck = false := by
      cases ht : t.stuck with
      | false => rfl
      | true => rw [h'.stuck ht] at hu; cases hu
    rw [hactions, Heap.Orderly, Heap.each_append, hperforms]
    exact ⟨h.orderly ht, h'.orderly hu⟩
  · rw [hactions]
    cases ht : t.stuck with
    | true =>
      obtain ⟨as, hp, hlocked⟩ := h.blocked hs ht
      exact ⟨as, hp.trans (List.prefix_append _ _), hlocked⟩
    | false =>
      obtain ⟨as, hp, horderly, g, hg⟩ := h'.blocked ht hu
      refine ⟨s.heap.actionsOf os ++ as, (List.prefix_append_right_inj _).mpr hp, ?_, g, ?_⟩
      · rw [Heap.Orderly, Heap.each_append, hperforms]
        exact ⟨h.orderly ht, horderly⟩
      · rw [Heap.performs_append, hperforms]
        exact hg
  · rw [hactions, Heap.each_append, hperforms]
    exact ⟨h.announces hF, h'.announces (hw.alone hF)⟩
  · rw [hactions] at hp
    rcases prefix_append_cases hp with hp | ⟨p', hp', rfl⟩
    · exact h.keeps p hp x
    · rw [Heap.performs_append, hperforms, ← hw.kept]
      exact h'.keeps p' hp' x
  · rw [hactions, List.mem_append, not_or]
    exact ⟨h.spares g hg, h'.spares g (hw.inUse hg)⟩
  · rw [hactions]
    exact (h.hooks k).trans (h'.hooks k) hperforms h'.allocated_le

/-- Where nothing is done to the heap, at most hooks that already ran go away. -/
theorem Leads.of_silent (ho : s.Owns F) (hheap : t.heap = s.heap) (hstuck : t.stuck = s.stuck)
    (hhooks : ∀ h, t.hooks[h]? = s.hooks[h]? ∨ t.hooks[h]? = none ∧ s.heap.wholeCount h = 0) :
    s.Leads F t [] := by
  refine ⟨trivial, hheap.symm, fun hs => hstuck.trans hs, fun _ => trivial, fun hs ht => ?_,
    fun _ => trivial, fun p hp x => ?_, fun g _ => List.not_mem_nil, fun h => ?_⟩
  · rw [hstuck, hs] at ht
    cases ht
  · obtain rfl := List.prefix_nil.mp hp
    exact ho.kept_le x
  · exact (hhooks h).imp id fun ⟨hn, hw⟩ => .inl ⟨hn, [], List.nil_prefix, hw⟩

/-- What a session looks like besides its heap and its hooks does not matter. -/
theorem Leads.congr (h : s.Leads F t os) (hheap : u.heap = t.heap) (hstuck : u.stuck = t.stuck)
    (hhooks : u.hooks = t.hooks) : s.Leads F u os := by
  obtain ⟨hsequential, hoperates, hstuck', horderly, hblocked, hannounces, hkeeps, hspares,
    hhooks'⟩ := h
  refine ⟨hsequential, hoperates.trans hheap.symm, ?_, ?_, ?_, hannounces, hkeeps, hspares,
    fun k => ?_⟩
  · rwa [hstuck]
  · rwa [hstuck]
  · rwa [hstuck]
  · rw [KeepsHook, hheap, hhooks]
    exact hhooks' k

/-! ## One action -/

theorem Goes.trans (h : Goes s F t G) (h' : Goes t G u H) : Goes s F u H := by
  intro ho
  obtain ⟨⟨os, hl⟩, ho, hw⟩ := h ho
  obtain ⟨⟨ps, hl'⟩, ho, hw'⟩ := h' ho
  exact ⟨⟨os ++ ps, hl.trans hl' hw⟩, ho, hw.trans hw'⟩

/-- What the session has to have may be looked up first. -/
theorem Goes.of_owns (h : s.Owns F → Goes s F t G) : Goes s F t G := fun ho => h ho ho

/-- Nothing wakes a session that is stuck. -/
theorem Goes.stuck_of (h : Goes s F t G) (ho : s.Owns F) (ht : t.stuck = false) :
    s.stuck = false := by
  obtain ⟨⟨os, hl⟩, -⟩ := h ho
  cases hs : s.stuck with
  | false => rfl
  | true => rw [hl.stuck hs] at ht; cases ht

theorem Goes.of_silent (hheap : t.heap = s.heap) (hstuck : t.stuck = s.stuck)
    (hhooks : t.hooks = s.hooks) (howns : s.Owns F → t.Owns G) (hw : F.Within G) :
    Goes s F t G :=
  fun ho => ⟨⟨[], .of_silent ho hheap hstuck fun _ => .inl (by rw [hhooks])⟩, howns ho, hw⟩

theorem Goes.refl (s : Session) (F : Hand) : Goes s F s F :=
  .of_silent rfl rfl rfl id (F.within _ _)

theorem Goes.weaken (h : Goes s F t (G.more [x])) : Goes s F t G := by
  refine h.trans (.of_silent rfl rfl rfl (fun ho => ⟨ho.covers.tail, fun hs => ?_, ho.alone⟩)
    ((G.more [x]).within _ _))
  exact (ho.inOrder hs).congr rfl rfl rfl ⟨rfl, rfl⟩

theorem Goes.perm {xs ys : List Holder} (h : Goes s F t { G with holders := xs })
    (hp : xs.Perm ys) : Goes s F t { G with holders := ys } := by
  refine h.trans (.of_silent rfl rfl rfl
    (fun ho => ⟨ho.covers.perm hp, fun hs => ?_, ho.alone⟩) (Hand.within _ _ _))
  exact (ho.inOrder hs).congr rfl rfl rfl ⟨rfl, rfl⟩

/-- Where nothing happens any more, the queues do not matter. -/
theorem Goes.of_stuck {qs : List ReleaseQueue} (h : Goes s F t { G with queues := qs })
    (ht : t.stuck = true) : Goes s F t G := by
  refine h.trans (.of_silent rfl rfl rfl (fun ho => ⟨ho.covers, fun hs => ?_, ho.alone⟩)
    (Hand.within _ _ _))
  rw [ht] at hs
  cases hs

/-- While an operation is done, the application holds what it held before or what it holds after. -/
theorem held_performs_prefix {w : Heap} {o : Operation} {p : List Action}
    (hp : p <+: o.actions w) :
    (w.performs p).held = w.held ∨ (w.performs p).held = (o.perform w).held := by
  cases o with
  | action a =>
    rcases List.prefix_cons_iff.mp hp with rfl | ⟨rest, rfl, hrest⟩
    · exact .inl rfl
    · obtain rfl := List.prefix_nil.mp hrest
      exact .inr rfl
  | set t k v | remove t k =>
    have htouch : ∀ (p : List Action) (w : Heap), (∀ a ∈ p, ∃ h t, a = .touch h t) →
        (w.performs p).held = w.held := by
      intro p
      induction p with
      | nil => exact fun w _ => rfl
      | cons a p ih =>
        intro w hp
        obtain ⟨h, t, rfl⟩ := hp a List.mem_cons_self
        exact ih _ fun a ha => hp a (List.mem_cons_of_mem _ ha)
    refine .inl (htouch p w fun a ha => ?_)
    have ha := hp.subset ha
    simp only [Operation.actions, List.mem_cons, List.not_mem_nil, or_false] at ha
    rcases ha with rfl | rfl | rfl <;> exact ⟨_, _, rfl⟩

/-- One operation, after which these holders and these queues are in hand. -/
theorem Goes.operate (o : Operation) {xs : List Holder} {qs : List ReleaseQueue}
    (he : s.Owns F → o.Enabled s.heap)
    (hcovers : Covers s.heap.held F.holders (s.needs F) →
      Covers (o.perform s.heap).held xs (s.needs F))
    (hturn : s.stuck = false → s.InOrder F → s.heap.Orderly (o.actions s.heap) ∧
      (o.perform s.heap).queues = qs ∧ ∀ p ∈ qs, ∀ g, p.unlocks g = true → g ∈ F.inUse)
    (htells : F.alone → s.heap.Each Action.Announces (o.actions s.heap))
    (hspares : s.Owns F → ∀ g ∈ F.inUse, o ≠ .action (.retire g)) :
    Goes s F { s with heap := o.perform s.heap } { F with holders := xs, queues := qs } := by
  intro ho
  have hactions : s.heap.actionsOf [o] = o.actions s.heap := List.append_nil _
  have hafter : Owns { s with heap := o.perform s.heap } { F with holders := xs, queues := qs } := by
    refine ⟨hcovers ho.covers, fun hs => ?_, ho.alone⟩
    obtain ⟨hsound, -, hinUse, hnamed, hlt, -⟩ := ho.inOrder hs
    obtain ⟨horderly, hqueues, hunlocks⟩ := hturn hs (ho.inOrder hs)
    have hperforms := Heap.performs_actions s.heap o
    have hle : s.heap.collectors.length ≤ (o.perform s.heap).collectors.length :=
      hperforms ▸ Heap.length_le_performs s.heap _
    exact ⟨hperforms ▸ hsound.performs horderly, hqueues, hinUse,
      fun name g hg => Nat.lt_of_lt_of_le (hnamed name g hg) hle,
      fun g hg => Nat.lt_of_lt_of_le (hlt g hg) hle, hunlocks⟩
  refine ⟨⟨[o], ⟨he ho, trivial⟩, rfl, id, fun hs => ?_, fun hs ht => ?_, fun hF => ?_,
    fun p hp x => ?_, fun g hg => ?_, fun h => .inl rfl⟩, hafter, F.within xs qs⟩
  · rw [hactions]
    exact (hturn hs (ho.inOrder hs)).1
  · exact absurd (hs.symm.trans ht) Bool.false_ne_true
  · rw [hactions]
    exact htells hF
  · rw [hactions] at hp
    rcases held_performs_prefix hp with hheld | hheld <;> rw [hheld]
    · exact ho.kept_le x
    · exact hafter.kept_le x
  · rw [hactions]
    cases o with
    | action a => simpa [Operation.actions, eq_comm] using hspares ho g hg
    | set t k v | remove t k => simp [Operation.actions]

/-- One action that leaves the holders of the application and the queues alone. -/
theorem Goes.act (a : Action) (he : (Operation.action a).Enabled s.heap)
    (hturn : s.stuck = false → s.InOrder F → a.InTurn s.heap)
    (htells : F.alone → a.Announces s.heap) (hspares : ∀ g, a ≠ .retire g)
    (hqueues : (a.perform s.heap).queues = s.heap.queues)
    (hheld : (a.perform s.heap).held = s.heap.held) :
    Goes s F { s with heap := a.perform s.heap } F := by
  refine .operate (.action a) (fun _ => he) (fun hc => ?_)
    (fun hs ho => ⟨⟨hturn hs ho, trivial⟩, hqueues.trans ho.queues, ho.unlocks⟩)
    (fun hF => ⟨htells hF, trivial⟩) (fun _ g _ h => hspares g (Operation.action.inj h))
  show Covers (a.perform s.heap).held F.holders (s.needs F)
  rwa [hheld]

theorem Goes.hold (hx : s.Owns F → s.heap.Cloneable x) :
    Goes s F (s.update (·.hold x)) (F.more [x]) :=
  .operate (.action (.clone x)) (fun ho => ⟨hx ho, rfl⟩) (fun hc => hc.add x)
    (fun _ ho => ⟨⟨.of_none rfl, trivial⟩, ho.queues, ho.unlocks⟩) (fun _ => ⟨trivial, trivial⟩)
    nofun

theorem Goes.letGo : Goes s (F.more [x]) (s.update (·.letGo x)) F :=
  .operate (.action (.drop x)) (fun _ => ⟨trivial, rfl⟩) (fun hc => hc.remove)
    (fun _ ho => ⟨⟨.of_none rfl, trivial⟩, ho.queues, ho.unlocks⟩) (fun _ => ⟨trivial, trivial⟩)
    nofun

theorem goes_hold_named {name : String} (hx : s.holders[name]? = some x) :
    Goes s F (s.update (·.hold x)) (F.more [x]) :=
  .hold fun ho => Heap.cloneable_of_count (ho.count_of_named hx)

theorem goes_setEntry (s : Session) (h : Handle) (k : Key) (v : Value) :
    Goes s F { s with heap := (s.heap.setEntry h k v).2 } F :=
  .operate (.set h k v) (fun _ => trivial) id
    (fun _ ho => ⟨⟨.of_none rfl, .of_none rfl, .of_none rfl, trivial⟩, ho.queues, ho.unlocks⟩)
    (fun _ => ⟨trivial, trivial, trivial, trivial⟩) nofun

theorem goes_removeEntry (s : Session) (h : Handle) (k : Key) :
    Goes s F { s with heap := (s.heap.removeEntry h k).2 } F :=
  .operate (.remove h k) (fun _ => trivial) id
    (fun _ ho => ⟨⟨.of_none rfl, .of_none rfl, trivial⟩, ho.queues, ho.unlocks⟩)
    (fun _ => ⟨trivial, trivial, trivial⟩) nofun

theorem goes_emit (s : Session) {e : Event} (he : e.isAnnouncement = true) :
    Goes s F (s.update (·.emit e)) F :=
  .act (.report (e :: s.heap.events)) ⟨trivial, rfl⟩ (fun _ _ => .of_none rfl)
    (fun _ => ⟨e, rfl, he⟩) nofun rfl rfl

theorem goes_foldl {α : Type} {f : Session → α → Session} (hf : ∀ s a, Goes s F (f s a) F)
    (l : List α) (s : Session) : Goes s F (l.foldl f s) F := by
  induction l generalizing s with
  | nil => exact .refl s F
  | cons a rest ih => exact (hf s a).trans (ih (f s a))

/-! ## Locks -/

theorem heap_acquire (s : Session) (g : CollectorId) : (s.acquire g).heap = s.heap := by
  unfold acquire
  split <;> rfl

theorem goes_acquire (s : Session) (g : CollectorId) : Goes s F (s.acquire g) F := by
  unfold acquire
  split
  · rename_i hlocked
    intro ho
    have hleads : s.Leads F { s with stuck := true } [] := by
      obtain ⟨hsequential, hoperates, -, -, -, hannounces, hkeeps, hspares, hhooks⟩ :=
        Leads.of_silent ho (t := s) rfl rfl fun _ => .inl rfl
      exact ⟨hsequential, hoperates, fun _ => rfl, fun _ => trivial,
        fun _ _ => ⟨[], List.nil_prefix, trivial, g, hlocked⟩, hannounces, hkeeps, hspares, hhooks⟩
    exact ⟨⟨[], hleads⟩, ⟨ho.covers, fun hs => Bool.noConfusion hs, ho.alone⟩, F.within _ _⟩
  · exact .refl s F

/-- Whoever gets the lock of a collector finds it free. -/
theorem findsFree_acquire (ha : a.lock? = some g) (hs : (s.acquire g).stuck = false)
    (hg : g < (s.acquire g).heap.collectors.length) : a.FindsFree (s.acquire g).heap := by
  intro g' hg'
  rw [ha] at hg'
  obtain rfl : g = g' := Option.some.inj hg'
  refine ⟨hg, ?_⟩
  unfold acquire at hs ⊢
  split at hs
  · cases hs
  · rename_i hn
    rw [if_neg hn]
    simpa using hn

/-- A look at a registry that finds a holder. -/
theorem goes_find (hg : g ∈ F.inUse) (a : Action)
    (he : (Operation.action a).Enabled (s.acquire g).heap) (ha : a.lock? = some g)
    (hturn : a.FindsFree (s.acquire g).heap → a.InTurn (s.acquire g).heap)
    (htells : a.Announces (s.acquire g).heap) (hspares : ∀ g, a ≠ .retire g)
    (hx : a.perform (s.acquire g).heap = (s.acquire g).heap.hold x) :
    Goes s F ((s.acquire g).update (·.hold x)) (F.more [x]) := by
  refine (goes_acquire s g).trans ?_
  show Goes (s.acquire g) F { s.acquire g with heap := (s.acquire g).heap.hold x } (F.more [x])
  rw [← hx]
  refine .operate (.action a) (fun _ => he) (fun hc => ?_) (fun hs ho => ⟨⟨?_, trivial⟩, ?_, ?_⟩)
    (fun _ => ⟨htells, trivial⟩) (fun _ g _ h => hspares g (Operation.action.inj h))
  · show Covers (a.perform (s.acquire g).heap).held (x :: F.holders) _
    rw [hx]
    exact hc.add x
  · exact hturn (findsFree_acquire ha hs (ho.inUse_lt g hg))
  · show (a.perform (s.acquire g).heap).queues = F.queues
    rw [hx]
    exact ho.queues
  · exact ho.unlocks

theorem goes_lookup {kind : Kind} {h : Handle} (hg : g ∈ F.inUse)
    (hx : (s.acquire g).heap.lookup g kind h = some x) :
    Goes s F ((s.acquire g).update (·.hold x)) (F.more [x]) :=
  goes_find hg (.get g kind h) ⟨trivial, rfl⟩ rfl id trivial nofun (by simp [Action.perform, hx])

theorem goes_lookupBase {h : Handle} (hg : g ∈ F.inUse)
    (hx : (s.acquire g).heap.lookupBase g h = some x) :
    Goes s F ((s.acquire g).update (·.hold x)) (F.more [x]) :=
  goes_find hg (.getObject g h) ⟨trivial, rfl⟩ rfl id trivial nofun (by simp [Action.perform, hx])

/-! ## Letting go -/

/-- However `run` runs steps, it does so by operations, and what was in hand still is. -/
def Honest (run : Runner) : Prop :=
  ∀ steps s F, (F.alone → Program.alone steps = true) → Goes s F (run steps s).2 F

variable {run : Runner}

theorem goes_drops (s : Session) (drops : List DropReport) :
    Goes s F { s with drops := drops } F :=
  .of_silent rfl rfl rfl (fun ho => ⟨ho.covers,
    fun hs => (ho.inOrder hs).congr rfl rfl rfl ⟨rfl, rfl⟩, ho.alone⟩) (F.within _ _)

theorem goes_eraseHook (s : Session) {h : Handle} (hw : s.heap.wholeCount h = 0) :
    Goes s F { s with hooks := s.hooks.erase h } F := by
  have herase : ∀ k, (s.hooks.erase h)[k]? = if h = k then none else s.hooks[k]? := fun k => by
    simp [Std.ExtTreeMap.getElem?_erase]
  refine fun ho => ⟨⟨[], .of_silent ho rfl rfl fun k => ?_⟩, ⟨ho.covers,
    fun hs => (ho.inOrder hs).congr rfl rfl rfl ⟨rfl, rfl⟩, fun hF k hook hk => ?_⟩, F.within _ _⟩
  · show (s.hooks.erase h)[k]? = _ ∨ (s.hooks.erase h)[k]? = none ∧ _
    rw [herase]
    split
    · rename_i he
      exact .inr ⟨rfl, he ▸ hw⟩
    · exact .inl rfl
  · have hk : (s.hooks.erase h)[k]? = some hook := hk
    rw [herase] at hk
    split at hk
    · cases hk
    · exact ho.alone hF k hook hk

/-- What one thing after the other may do, if operations may. -/
structure Composes (R : Session → Hand → Session → Hand → Prop) : Prop where
  goes : ∀ {s F t G}, Goes s F t G → R s F t G
  trans : ∀ {s F t G u H}, R s F t G → R t G u H → R s F u H

theorem composes_goes : Composes Goes := ⟨id, Goes.trans⟩

/-- However `run` runs steps, `R` says what that may do, and what was in hand still is. -/
def RunsBy (R : Session → Hand → Session → Hand → Prop) (run : Runner) : Prop :=
  ∀ steps s F, (F.alone → Program.alone steps = true) → R s F (run steps s).2 F

section

variable {R : Session → Hand → Session → Hand → Prop}

/-- What the session has to have may be looked up first. -/
theorem Composes.of_owns (hR : Composes R) (h : s.Owns F → R s F t G) : R s F t G := by
  by_cases ho : s.Owns F
  · exact h ho
  · exact hR.goes fun ho' => absurd ho' ho

theorem Composes.runHook (hR : Composes R) (hrun : RunsBy R run) {h : Handle} {hook : Hook}
    {s : Session} (hhook : s.hooks[h]? = some hook) (hw : s.heap.wholeCount h = 0) :
    R s F (s.runHook run h hook) F := by
  -- the body of a hook, whether or not its collector still has a name
  have hbody : ∀ t : Session, t.heap = s.heap → Goes s F t F → R s F (if t.stuck then t else
      { (run hook.steps { t with hooks := t.hooks.erase h }).2 with
        drops := (run hook.steps { t with hooks := t.hooks.erase h }).2.drops ++
          [.mk hook.name (t.summary hook.collector)
            (run hook.steps { t with hooks := t.hooks.erase h }).1] }) F := by
    intro t hheap ht
    split
    · exact hR.goes ht
    · refine hR.of_owns fun ho => ?_
      have hsteps := hrun hook.steps { t with hooks := t.hooks.erase h } F
        fun hF => ho.alone hF h hook hhook
      have herase : Goes t F _ F := goes_eraseHook t (hheap ▸ hw)
      exact hR.trans (hR.trans (hR.goes (ht.trans herase)) hsteps) (hR.goes (goes_drops _ _))
  unfold Session.runHook
  split
  · exact hbody _ (heap_acquire s _) (goes_acquire s _)
  · exact hbody s rfl (.refl s F)

theorem Composes.afterDrop (hR : Composes R) (hrun : RunsBy R run) (x : Holder) (s : Session) :
    R s F (s.afterDrop run x) F := by
  unfold Session.afterDrop
  split
  · rename_i hook hhook
    split
    · rename_i hlast
      exact hR.runHook hrun hhook hlast.2
    · exact hR.goes (.refl s F)
  · exact hR.goes (.refl s F)

end

theorem goes_afterDrop (hrun : Honest run) (x : Holder) (s : Session) :
    Goes s F (s.afterDrop run x) F :=
  composes_goes.afterDrop hrun x s

theorem goes_dropHolder (hrun : Honest run) (x : Holder) (s : Session) :
    Goes s (F.more [x]) (s.dropHolder run x) F :=
  Goes.letGo.trans (goes_afterDrop hrun x _)

theorem goes_releaseNext (q : QueueId) (x : Holder) (rest : List Holder) (after : Afterwards)
    (s : Session) :
    Goes s (F.opened ⟨q, x :: rest, after⟩) (s.update (·.releaseNext q))
      (F.opened ⟨q, rest, after⟩) := by
  refine .operate (.action (.release q)) (fun _ => ⟨trivial, rfl⟩) id
    (fun _ ho => ⟨⟨?_, trivial⟩, ?_, ?_⟩) (fun _ => ⟨trivial, trivial⟩) nofun
  · exact Action.inTurn_release_iff.mpr ⟨_, _, ho.queues, rfl, by simp⟩
  · exact ho.sound.numbered.releaseNext_head ho.queues
  · intro p hp
    rcases List.mem_cons.mp hp with rfl | hp
    · exact ho.unlocks ⟨q, x :: rest, after⟩ List.mem_cons_self
    · exact ho.unlocks p (List.mem_cons_of_mem _ hp)

theorem goes_closeQueue (q : QueueId) (after : Afterwards) (s : Session) :
    Goes s (F.opened ⟨q, [], after⟩) (s.update (·.closeQueue q)) F := by
  refine .operate (.action (.close q)) (fun _ => ⟨trivial, rfl⟩) (fun hc => ?_)
    (fun _ ho => ⟨⟨?_, trivial⟩, ?_, ?_⟩) (fun _ => ⟨trivial, trivial⟩) nofun
  · show Covers (s.heap.closeQueue q).held F.holders (s.needs F)
    rw [(s.heap.closeQueue_frame q).1]
    exact hc
  · exact Action.inTurn_close_iff.mpr ⟨_, _, ho.queues, rfl, rfl⟩
  · exact ho.sound.numbered.closeQueue_head ho.queues
  · exact fun p hp => ho.unlocks p (List.mem_cons_of_mem _ hp)

theorem Composes.drain {R : Session → Hand → Session → Hand → Prop} (hR : Composes R)
    (hrun : RunsBy R run) (q : QueueId) (after : Afterwards) (xs : List Holder) (s : Session) :
    R s (F.opened ⟨q, xs, after⟩) (s.drain run q xs) F := by
  induction xs generalizing s with
  | nil => exact hR.goes (goes_closeQueue q after s)
  | cons x rest ih =>
    have hdrop := hR.trans (hR.goes (goes_releaseNext (F := F) q x rest after s))
      (hR.afterDrop hrun x _)
    rw [Session.drain]
    split
    · rename_i hs
      have hend : Goes _ (F.opened ⟨q, rest, after⟩) _ F := (Goes.refl _ _).of_stuck hs
      exact hR.trans hdrop (hR.goes hend)
    · exact hR.trans hdrop (ih _)

theorem goes_drain (hrun : Honest run) (q : QueueId) (after : Afterwards) (xs : List Holder)
    (s : Session) : Goes s (F.opened ⟨q, xs, after⟩) (s.drain run q xs) F :=
  composes_goes.drain hrun q after xs s

theorem goes_release (hrun : Honest run) {q : QueueId} {after : Afterwards} {xs : List Holder}
    {s : Session} (hq : s.heap.waiting q = xs) :
    Goes s (F.opened ⟨q, xs, after⟩) (s.release run q) F := by
  rw [release, hq]
  exact goes_drain hrun q after xs s

section

variable {q : QueueId} {xs : List Holder} {after : Afterwards}

/-- An action that opens a queue. -/
theorem goes_opened (a : Action) (he : (Operation.action a).Enabled s.heap)
    (hturn : s.stuck = false → s.InOrder F → a.InTurn s.heap) (htells : a.Announces s.heap)
    (hspares : s.Owns F → ∀ g ∈ F.inUse, a ≠ .retire g)
    (hqueues : (a.perform s.heap).queues = ⟨q, xs, after⟩ :: s.heap.queues)
    (hafter : ∀ g, after ≠ .unlock g) (hheld : (a.perform s.heap).held = s.heap.held) :
    Goes s F { s with heap := a.perform s.heap } (F.opened ⟨q, xs, after⟩) := by
  refine .operate (.action a) (fun _ => he) (fun hc => ?_)
    (fun hs ho => ⟨⟨hturn hs ho, trivial⟩, hqueues.trans (by rw [ho.queues]), ?_⟩)
    (fun _ => ⟨htells, trivial⟩) (fun ho g hg h => hspares ho g hg (Operation.action.inj h))
  · show Covers (a.perform s.heap).held F.holders (s.needs F)
    rwa [hheld]
  · intro p hp g hg
    rcases List.mem_cons.mp hp with rfl | hp
    · exact absurd (of_decide_eq_true hg) (hafter g)
    · exact ho.unlocks p hp g hg

/-- And then what waits there is released. -/
theorem goes_open (hrun : Honest run) (a : Action) (he : (Operation.action a).Enabled s.heap)
    (hturn : s.stuck = false → s.InOrder F → a.InTurn s.heap) (htells : a.Announces s.heap)
    (hspares : s.Owns F → ∀ g ∈ F.inUse, a ≠ .retire g)
    (hqueues : (a.perform s.heap).queues = ⟨q, xs, after⟩ :: s.heap.queues)
    (hafter : ∀ g, after ≠ .unlock g) (hheld : (a.perform s.heap).held = s.heap.held) :
    Goes s F (release run q { s with heap := a.perform s.heap }) F :=
  (goes_opened a he hturn htells hspares hqueues hafter hheld).trans
    (goes_release hrun (Heap.waiting_head hqueues))

end

theorem goes_bind (hrun : Honest run) (name : Option String) (x : Holder) (s : Session) :
    Goes s (F.more [x]) (s.bind run name x) F := by
  unfold bind
  split
  · exact goes_dropHolder hrun x s
  · rename_i name
    -- what the name held so far is in hand once the name holds `x`
    have hown : ∀ former : List Holder,
        (∀ y, former.count y = if s.holders[name]? = some y then 1 else 0) →
        Goes s (F.more [x]) { s with
          handles := s.handles.insert name x.handle
          holders := s.holders.insert name x } (F.more former) := by
      intro former hf
      refine .of_silent rfl rfl rfl (fun ho => ⟨fun y => ?_,
        fun hs => (ho.inOrder hs).congr rfl rfl rfl ⟨rfl, rfl⟩, ho.alone⟩) (Hand.within _ _ _)
      have hle : (x :: F.holders).count y + (occurrences s.holders y + F.kept.count y) ≤ _ :=
        ho.covers y
      have hsize := occurrences_insert s.holders name x y
      show (former ++ F.holders).count y +
        (occurrences (s.holders.insert name x) y + F.kept.count y) ≤ s.heap.held.count y
      rw [List.count_cons] at hle
      rw [List.count_append, hf]
      simp only [beq_iff_eq] at hle
      omega
    cases hn : s.holders[name]? with
    | none => exact hown [] (by simp [hn])
    | some z =>
      refine (hown [z] fun y => ?_).trans (goes_dropHolder hrun z _)
      simp [hn, List.count_cons]

end Session

end Program

end SharedHeap
