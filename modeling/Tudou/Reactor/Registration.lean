import Tudou.Reactor.ChannelOwners

/-!
# A descriptor outlives the registration of its channel

Proofs about `process`: the owners' descriptors, `channels_` and the kernel's interest lists stay in
step as long as channels go before their descriptors.

* `Sound` — the pollers have exactly the channels that exist, over descriptors their owners hold.
* `Sound.putOwner` — an owner's entry and its poller's change together.
* `AllTidy`, `teardown_sound` — destructors in progress are in order, statement by statement.
* `fd_outlives_registration` — a descriptor is closed after its channel has left `channels_`, and the
  poller acts on open descriptors of its own channels only, if no `BinaryRpcChannel` of a loop is
  destroyed and the owners come and go on their loop's thread.
* `closed_before_unregistered` — the destructor of a `BinaryRpcChannel`, and who gets its descriptor;
  `violation_of_destroy`: it goes wrong each time.
-/

namespace Tudou

open Transition

/-! ## Tables -/

/-- What is left in a table from which an entry was taken. -/
theorem of_update_none {α β : Type*} [DecidableEq α] {f : α → Option β} {a b : α} {v : β}
    (h : Function.update f a none b = some v) : b ≠ a ∧ f b = some v := by
  by_cases heq : b = a
  · subst heq
    rw [Function.update_self] at h
    cases h
  · rw [Function.update_of_ne heq] at h
    exact ⟨heq, h⟩

theorem update_none_of_none {α β : Type*} [DecidableEq α] {f : α → Option β} {b : α}
    (h : f b = none) (a : α) : Function.update f a none b = none := by
  by_cases heq : b = a
  · rw [heq, Function.update_self]
  · rw [Function.update_of_ne heq, h]

/-- What is in a table with a new or changed entry. -/
theorem of_update_some {α β : Type*} [DecidableEq α] {f : α → Option β} {a b : α} {v w : β}
    (h : Function.update f a (some v) b = some w) : b = a ∧ w = v ∨ b ≠ a ∧ f b = some w := by
  by_cases heq : b = a
  · subst heq
    rw [Function.update_self] at h
    cases h
    exact .inl ⟨rfl, rfl⟩
  · rw [Function.update_of_ne heq] at h
    exact .inr ⟨heq, h⟩

namespace Process

/-! ## Calls of the poller that are in step -/

variable {s : Process} {t loop fd o : Nat} {l : LoopPoller} {events : EpollEvents}

theorem updateChannel_mod {room : Bool} (hl : s.loops loop = some l) (ht : l.thread = t)
    (hmap : l.channels fd = some o) (hopen : (s.fds fd).isSome = true)
    (hint : (l.interest fd).isSome = true) :
    s.updateChannel t loop fd o events room =
      (s.setLoop loop { l with interest := Function.update l.interest fd (some (o, events)) }).record
        [.ctl .mod fd o true (some o)] := by
  have hne : l.interest fd ≠ none := by
    rw [← Option.isSome_iff_ne_none]
    exact hint
  simp [updateChannel, hl, ht, hmap, hopen, epollCtl, hne, assertThat]

theorem updateChannel_add (hl : s.loops loop = some l) (ht : l.thread = t)
    (hmap : l.channels fd = none) (hopen : (s.fds fd).isSome = true) (hint : l.interest fd = none) :
    s.updateChannel t loop fd o events true =
      (s.setLoop loop { l with
        channels := Function.update l.channels fd (some o)
        interest := Function.update l.interest fd (some (o, events)) }).record
        [.ctl .add fd o true none] := by
  simp [updateChannel, hl, ht, hmap, hopen, epollCtl, hint, assertThat]

theorem removeChannel_del (hl : s.loops loop = some l) (ht : l.thread = t)
    (hopen : (s.fds fd).isSome = true) (hint : (l.interest fd).isSome = true) :
    s.removeChannel t loop fd o =
      (s.setLoop loop { l with
        channels := Function.update l.channels fd none
        interest := Function.update l.interest fd none }).record
        [.ctl .del fd o true (l.channels fd)] := by
  have hne : l.interest fd ≠ none := by
    rw [← Option.isSome_iff_ne_none]
    exact hint
  simp [removeChannel, hl, ht, hopen, epollCtl, hne, assertThat]

theorem anyOwner_eq_false {p : Nat → ChannelOwner → Bool} (h : s.anyOwner p = false) {w : ChannelOwner}
    (hlt : o < s.created) (hw : s.owners o = some w) : p o w = false := by
  simp only [anyOwner, List.any_eq_false, List.mem_range] at h
  simpa [hw] using h o hlt

/-! ## What `channels_` and the kernel have -/

/-- The mask of a channel that exists. -/
def mask (s : Process) (o : Nat) : Option EpollEvents :=
  (s.owners o).bind fun w => w.channel.map (·.events)

/-- The pollers have the channels that exist, and these lie over descriptors their owners hold. -/
structure Sound (s : Process) : Prop where
  channels_iff : ∀ {loop l}, s.loops loop = some l → ∀ fd o, l.channels fd = some o ↔
    ∃ w, s.owners o = some w ∧ w.channel.isSome = true ∧ w.loop = loop ∧ w.fd = fd
  /-- The kernel has a channel's pointer and mask exactly where `channels_` has the channel. -/
  interest_eq : ∀ {loop l}, s.loops loop = some l → ∀ fd,
    l.interest fd = (l.channels fd).bind fun o => (s.mask o).map fun m => (o, m)
  held : ∀ {o w}, s.owners o = some w → w.channel.isSome = true → s.fds w.fd = some (.owner o)
  epoll : ∀ {loop l}, s.loops loop = some l → s.fds l.epollFd = some (.epoll loop)
  fresh : ∀ o, s.created ≤ o → s.owners o = none
  freshLoop : ∀ loop, s.loopsCreated ≤ loop → s.loops loop = none
  loop_lt : ∀ {o w}, s.owners o = some w → w.loop < s.loopsCreated
  log : ∀ e ∈ s.log, e.Ok

theorem sound_create : create.Sound where
  channels_iff := fun h => by cases h
  interest_eq := fun h => by cases h
  held := fun h => by cases h
  epoll := fun h => by cases h
  fresh := fun _ _ => rfl
  freshLoop := fun _ _ => rfl
  loop_lt := fun h => by cases h
  log := fun _ h => by cases h

/-- No channel lies over the descriptor, and no poller has it as its own. -/
structure Unused (s : Process) (fd : Nat) : Prop where
  owner : ∀ {o w}, s.owners o = some w → w.channel.isSome = true → w.fd ≠ fd
  epoll : ∀ {loop l}, s.loops loop = some l → l.epollFd ≠ fd

/-- A descriptor is unused if neither an owner nor a poller holds it. -/
theorem Sound.unused (h : s.Sound) (howner : ∀ o, s.fds fd ≠ some (.owner o))
    (hepoll : ∀ loop, s.fds fd ≠ some (.epoll loop)) : s.Unused fd := by
  refine ⟨fun hw hc heq => ?_, fun hl heq => ?_⟩
  · subst heq
    exact howner _ (h.held hw hc)
  · subst heq
    exact hepoll _ (h.epoll hl)

theorem Sound.channels_eq_none (h : s.Sound) (hu : s.Unused fd) (hl : s.loops loop = some l) :
    l.channels fd = none := by
  cases hm : l.channels fd with
  | none => rfl
  | some o =>
    obtain ⟨w, hw, hc, _, hfd⟩ := (h.channels_iff hl fd o).mp hm
    exact absurd hfd (hu.owner hw hc)

theorem Sound.interest_eq_none (h : s.Sound) (hl : s.loops loop = some l)
    (hm : l.channels fd = none) : l.interest fd = none := by
  rw [h.interest_eq hl, hm]
  rfl

theorem Sound.setFd (h : s.Sound) (hu : s.Unused fd) (x : Option FdHolder) :
    Sound { s with fds := Function.update s.fds fd x } := by
  refine ⟨h.channels_iff, h.interest_eq, fun hw hc => ?_, fun hl => ?_, h.fresh, h.freshLoop,
    h.loop_lt, h.log⟩
  · exact (Function.update_of_ne (hu.owner hw hc) _ _).trans (h.held hw hc)
  · exact (Function.update_of_ne (hu.epoll hl) _ _).trans (h.epoll hl)

/-- No interest list has an unused descriptor, so `close` has nothing to forget. -/
theorem Sound.close_eq (h : s.Sound) (hu : s.Unused fd) :
    s.close fd = { s with fds := Function.update s.fds fd none } := by
  have hloops : (fun loop => (s.loops loop).map fun l =>
      { l with interest := Function.update l.interest fd none }) = s.loops := by
    funext loop
    cases hl : s.loops loop with
    | none => rfl
    | some l =>
      have hint := h.interest_eq_none hl (h.channels_eq_none hu hl)
      rw [Option.map_some, Function.update_eq_self_iff.mpr hint.symm]
  rw [close, hloops]

theorem Sound.record (h : s.Sound) {es : List PollerEvent} (hes : ∀ e ∈ es, e.Ok) :
    (s.record es).Sound := by
  refine ⟨h.channels_iff, h.interest_eq, h.held, h.epoll, h.fresh, h.freshLoop, h.loop_lt,
    fun e he => ?_⟩
  rcases List.mem_append.mp he with he | he
  · exact h.log e he
  · exact hes e he

variable {w w' : ChannelOwner} {c : Channel}

theorem setOwner_owners_self : (s.setOwner o w).owners o = some w := Function.update_self ..

theorem setOwner_owners_of_ne {o' : Nat} (h : o' ≠ o) : (s.setOwner o w).owners o' = s.owners o' :=
  Function.update_of_ne h _ _

theorem addOwner_owners_self : (s.addOwner w).owners s.created = some w := Function.update_self ..

/-- Only the destructor of an owner changes. -/
theorem Sound.setOwner (h : s.Sound) (hw : s.owners o = some w) (hc : w'.channel = w.channel)
    (hloop : w'.loop = w.loop) (hfd : w'.fd = w.fd) : (s.setOwner o w').Sound := by
  have hmask : ∀ o', (s.setOwner o w').mask o' = s.mask o' := fun o' => by
    by_cases heq : o' = o
    · subst heq
      simp only [mask, setOwner_owners_self, hw, Option.bind_some, hc]
    · simp only [mask, setOwner_owners_of_ne heq]
  have hback : ∀ {o' v'}, (s.setOwner o w').owners o' = some v' → ∃ v, s.owners o' = some v ∧
      v'.channel = v.channel ∧ v'.loop = v.loop ∧ v'.fd = v.fd := fun {o' v'} hv => by
    rcases of_update_some hv with ⟨rfl, rfl⟩ | ⟨-, hv⟩
    · exact ⟨w, hw, hc, hloop, hfd⟩
    · exact ⟨v', hv, rfl, rfl, rfl⟩
  refine ⟨fun hl fd' o' => ?_, fun hl fd' => ?_, fun hv hvc => ?_, h.epoll, fun o' ho' => ?_,
    h.freshLoop, fun hv => ?_, h.log⟩
  · rw [h.channels_iff hl]
    constructor
    · rintro ⟨v, hv, hvc, hvl, hvf⟩
      by_cases heq : o' = o
      · subst heq
        rw [hw] at hv
        cases hv
        exact ⟨w', setOwner_owners_self, by rw [hc]; exact hvc, hloop.trans hvl, hfd.trans hvf⟩
      · exact ⟨v, by rw [setOwner_owners_of_ne heq]; exact hv, hvc, hvl, hvf⟩
    · rintro ⟨v', hv', hvc, hvl, hvf⟩
      obtain ⟨v, hv, hc', hl', hf'⟩ := hback hv'
      exact ⟨v, hv, by rw [← hc']; exact hvc, hl'.symm.trans hvl, hf'.symm.trans hvf⟩
  · simp only [hmask]
    exact h.interest_eq hl fd'
  · obtain ⟨v, hv', hc', _, hf'⟩ := hback hv
    rw [hf']
    exact h.held hv' (by rw [← hc']; exact hvc)
  · have hne : o' ≠ o := by
      rintro rfl
      rw [h.fresh o' ho'] at hw
      cases hw
    rw [setOwner_owners_of_ne hne]
    exact h.fresh o' ho'
  · obtain ⟨v, hv', _, hl', _⟩ := hback hv
    rw [hl']
    exact h.loop_lt hv'

theorem setLoop_loops_self : (s.setLoop loop l).loops loop = some l := Function.update_self ..

theorem setLoop_loops_of_ne {loop' : Nat} (h : loop' ≠ loop) :
    (s.setLoop loop l).loops loop' = s.loops loop' :=
  Function.update_of_ne h _ _

/-- Elsewhere than at its descriptor in its loop, `channels_` has other owners only. -/
theorem Sound.ne_of_mapped {v : ChannelOwner} {o' : Nat} (h : s.Sound)
    (hsame : ∀ w, s.owners o = some w → w.loop = v.loop ∧ w.fd = v.fd) (hl : s.loops loop = some l)
    (hm : l.channels fd = some o') (hne : loop ≠ v.loop ∨ fd ≠ v.fd) : o' ≠ o := by
  rintro rfl
  obtain ⟨w, hw, _, hwl, hwf⟩ := (h.channels_iff hl fd o').mp hm
  obtain ⟨hvl, hvf⟩ := hsame w hw
  rcases hne with hne | hne
  · exact hne (hwl.symm.trans hvl)
  · exact hne (hwf.symm.trans hvf)

theorem Sound.channels_iff_setOwner {v : ChannelOwner} {o' : Nat} (h : s.Sound)
    (hsame : ∀ w, s.owners o = some w → w.loop = v.loop ∧ w.fd = v.fd) (hl : s.loops loop = some l)
    (hne : loop ≠ v.loop ∨ fd ≠ v.fd) :
    l.channels fd = some o' ↔ ∃ w, (s.setOwner o v).owners o' = some w ∧ w.channel.isSome = true ∧
      w.loop = loop ∧ w.fd = fd := by
  by_cases heq : o' = o
  · subst heq
    refine iff_of_false (fun hm => h.ne_of_mapped hsame hl hm hne rfl) ?_
    rintro ⟨w, hw, _, hwl, hwf⟩
    obtain rfl := Option.some.inj (setOwner_owners_self.symm.trans hw)
    rcases hne with hne | hne
    · exact hne hwl.symm
    · exact hne hwf.symm
  · rw [h.channels_iff hl, setOwner_owners_of_ne heq]

theorem Sound.interest_eq_setOwner {v : ChannelOwner} (h : s.Sound)
    (hsame : ∀ w, s.owners o = some w → w.loop = v.loop ∧ w.fd = v.fd) (hl : s.loops loop = some l)
    (hne : loop ≠ v.loop ∨ fd ≠ v.fd) :
    l.interest fd = (l.channels fd).bind fun o' => ((s.setOwner o v).mask o').map fun m => (o', m) := by
  rw [h.interest_eq hl]
  cases hm : l.channels fd with
  | none => rfl
  | some o' =>
    simp only [Option.bind_some, mask, setOwner_owners_of_ne (h.ne_of_mapped hsame hl hm hne)]

/-- At its descriptor in its loop, `channels_` has to have the owner exactly if it has a channel: two
owners do not hold one descriptor. -/
theorem Sound.channel_iff_setOwner {v : ChannelOwner} {o' : Nat} (h : s.Sound)
    (hheld : s.fds v.fd = some (.owner o)) :
    (v.channel.map fun _ => o) = some o' ↔ ∃ w, (s.setOwner o v).owners o' = some w ∧
      w.channel.isSome = true ∧ w.loop = v.loop ∧ w.fd = v.fd := by
  constructor
  · intro hm
    obtain ⟨c, hc, rfl⟩ := Option.map_eq_some_iff.mp hm
    exact ⟨v, setOwner_owners_self, by rw [hc]; rfl, rfl, rfl⟩
  · rintro ⟨w, hw, hwc, _, hwf⟩
    by_cases heq : o' = o
    · subst heq
      obtain rfl := Option.some.inj (setOwner_owners_self.symm.trans hw)
      obtain ⟨c, hc⟩ := Option.isSome_iff_exists.mp hwc
      rw [hc]
      rfl
    · have hheld' := h.held ((setOwner_owners_of_ne heq).symm.trans hw) hwc
      rw [hwf, hheld] at hheld'
      cases hheld'
      exact absurd rfl heq

theorem setOwner_mask {v : ChannelOwner} :
    (s.setOwner o v).mask o = v.channel.map (·.events) := by
  simp only [mask, setOwner_owners_self, Option.bind_some]

/-- **An owner and its poller change together**: the entry of one owner is replaced, or made, and
`channels_` and the interest list of its loop follow. -/
theorem Sound.putOwner {v : ChannelOwner} (h : s.Sound) (hl : s.loops v.loop = some l)
    (hsame : ∀ w, s.owners o = some w → w.loop = v.loop ∧ w.fd = v.fd) (hlt : o < s.created)
    (hheld : s.fds v.fd = some (.owner o)) :
    ((s.setOwner o v).setLoop v.loop { l with
      channels := Function.update l.channels v.fd (v.channel.map fun _ => o)
      interest := Function.update l.interest v.fd (v.channel.map fun c => (o, c.events)) }).Sound := by
  refine ⟨fun {loop l'} hl' fd' o' => ?_, fun {loop l'} hl' fd' => ?_, fun {o' w} hw hc => ?_,
    fun {loop l'} hl' => ?_, fun o' ho' => ?_, fun loop hloop => ?_, fun {o' w} hw => ?_, h.log⟩
  · by_cases hloop : loop = v.loop
    · subst hloop
      rw [setLoop_loops_self] at hl'
      cases hl'
      by_cases hfd : fd' = v.fd
      · subst hfd
        simp only [Function.update_self]
        exact h.channel_iff_setOwner hheld
      · simp only [Function.update_of_ne hfd]
        exact h.channels_iff_setOwner hsame hl (.inr hfd)
    · rw [setLoop_loops_of_ne hloop] at hl'
      exact h.channels_iff_setOwner hsame hl' (.inl hloop)
  · by_cases hloop : loop = v.loop
    · subst hloop
      rw [setLoop_loops_self] at hl'
      cases hl'
      by_cases hfd : fd' = v.fd
      · subst hfd
        simp only [Function.update_self]
        cases hc : v.channel with
        | none => rfl
        | some c =>
          show some (o, c.events) = ((s.setOwner o v).mask o).map fun m => (o, m)
          rw [setOwner_mask, hc]
          rfl
      · simp only [Function.update_of_ne hfd]
        exact h.interest_eq_setOwner hsame hl (.inr hfd)
    · rw [setLoop_loops_of_ne hloop] at hl'
      exact h.interest_eq_setOwner hsame hl' (.inl hloop)
  · by_cases heq : o' = o
    · subst heq
      obtain rfl : v = w := Option.some.inj (setOwner_owners_self.symm.trans hw)
      exact hheld
    · exact h.held ((setOwner_owners_of_ne heq).symm.trans hw) hc
  · by_cases hloop : loop = v.loop
    · subst hloop
      rw [setLoop_loops_self] at hl'
      cases hl'
      exact (h.epoll hl : s.fds l.epollFd = _)
    · rw [setLoop_loops_of_ne hloop] at hl'
      exact h.epoll hl'
  · have hle : s.created ≤ o' := ho'
    exact (setOwner_owners_of_ne (by omega)).trans (h.fresh o' hle)
  · have hne : loop ≠ v.loop := by
      rintro rfl
      rw [h.freshLoop _ hloop] at hl
      cases hl
    exact (setLoop_loops_of_ne hne).trans (h.freshLoop loop hloop)
  · by_cases heq : o' = o
    · subst heq
      obtain rfl : v = w := Option.some.inj (setOwner_owners_self.symm.trans hw)
      refine Nat.lt_of_not_le fun hge => ?_
      rw [h.freshLoop _ hge] at hl
      cases hl
    · exact h.loop_lt ((setOwner_owners_of_ne heq).symm.trans hw)

/-! ## The channel of one owner -/

/-- A channel that exists is registered with its mask, and its descriptor is open. -/
theorem Sound.registered (h : s.Sound) (hw : s.owners o = some w) (hc : w.channel = some c)
    (hl : s.loops w.loop = some l) :
    s.fds w.fd = some (.owner o) ∧ l.channels w.fd = some o ∧
      l.interest w.fd = some (o, c.events) := by
  have hsome : w.channel.isSome = true := by
    rw [hc]
    rfl
  have hm : l.channels w.fd = some o := (h.channels_iff hl w.fd o).mpr ⟨w, hw, hsome, rfl, rfl⟩
  refine ⟨h.held hw hsome, hm, ?_⟩
  rw [h.interest_eq hl, hm]
  simp [mask, hw, hc]

theorem Sound.created_lt (h : s.Sound) (hw : s.owners o = some w) : o < s.created := by
  refine Nat.lt_of_not_le fun hge => ?_
  rw [h.fresh o hge] at hw
  cases hw

/-- What `update_channel` does for a channel that exists. -/
theorem Sound.updateChannel_eq (h : s.Sound) (hw : s.owners o = some w) (hc : w.channel = some c)
    (hl : s.loops w.loop = some l) (ht : l.thread = t) (v : ChannelOwner) :
    (s.setOwner o v).updateChannel t w.loop w.fd o events true =
      ((s.setOwner o v).setLoop w.loop { l with
        channels := Function.update l.channels w.fd (some o)
        interest := Function.update l.interest w.fd (some (o, events)) }).record
        [.ctl .mod w.fd o true (some o)] := by
  obtain ⟨hheld, hm, hint⟩ := h.registered hw hc hl
  have hopen : ((s.setOwner o v).fds w.fd).isSome = true := by
    show (s.fds w.fd).isSome = true
    rw [hheld]
    rfl
  have hkeep : Function.update l.channels w.fd (some o) = l.channels :=
    Function.update_eq_self_iff.mpr hm.symm
  rw [updateChannel_mod (s := s.setOwner o v) hl ht hm hopen (by rw [hint]; rfl), hkeep]

/-- The owner of a channel changes its mask. -/
theorem Sound.setChannel (h : s.Sound) (hw : s.owners o = some w) (hc : w.channel = some c)
    (hl : s.loops w.loop = some l) (ht : l.thread = t) (c' : Channel)
    (d : Option (Nat × List Teardown)) :
    ((s.setOwner o { w with channel := some c', destructor := d }).updateChannel
      t w.loop w.fd o c'.events true).Sound := by
  rw [h.updateChannel_eq hw hc hl ht]
  have hput := h.putOwner (o := o) (v := { w with channel := some c', destructor := d }) hl
    (fun w' hw' => by
      rw [hw] at hw'
      cases hw'
      exact ⟨rfl, rfl⟩) (h.created_lt hw) (h.registered hw hc hl).1
  exact hput.record (by simp [PollerEvent.Ok])

/-- What `~Channel` does: two calls of the poller, after which the channel is not registered. -/
theorem Sound.dropChannel_eq (h : s.Sound) (hw : s.owners o = some w) (hc : w.channel = some c)
    (hl : s.loops w.loop = some l) (ht : l.thread = t) (v : ChannelOwner) :
    ((s.setOwner o v).updateChannel t w.loop w.fd o events true).removeChannel t w.loop w.fd o =
      ((s.setOwner o v).setLoop w.loop { l with
        channels := Function.update l.channels w.fd none
        interest := Function.update l.interest w.fd none }).record
        [.ctl .mod w.fd o true (some o), .ctl .del w.fd o true (some o)] := by
  obtain ⟨hheld, -, -⟩ := h.registered hw hc hl
  have hopen : (s.fds w.fd).isSome = true := by
    rw [hheld]
    rfl
  have hl' : (((s.setOwner o v).setLoop w.loop { l with
      channels := Function.update l.channels w.fd (some o)
      interest := Function.update l.interest w.fd (some (o, events)) }).record
      [.ctl .mod w.fd o true (some o)]).loops w.loop = some { l with
        channels := Function.update l.channels w.fd (some o)
        interest := Function.update l.interest w.fd (some (o, events)) } := setLoop_loops_self
  rw [h.updateChannel_eq hw hc hl ht, removeChannel_del hl' ht hopen (by simp)]
  simp [setLoop, Process.record, Function.update_idem]

/-- `~Channel`. -/
theorem Sound.dropChannel (h : s.Sound) (hw : s.owners o = some w) (hc : w.channel = some c)
    (hl : s.loops w.loop = some l) (ht : l.thread = t) (d : Option (Nat × List Teardown)) :
    (((s.setOwner o { w with channel := none, destructor := d }).updateChannel
      t w.loop w.fd o events true).removeChannel t w.loop w.fd o).Sound := by
  rw [h.dropChannel_eq hw hc hl ht]
  have hput := h.putOwner (o := o) (v := { w with channel := none, destructor := d }) hl
    (fun w' hw' => by
      rw [hw] at hw'
      cases hw'
      exact ⟨rfl, rfl⟩) (h.created_lt hw) (h.registered hw hc hl).1
  exact hput.record (by simp [PollerEvent.Ok])

/-- The owner of a descriptor without a channel closes it. -/
theorem Sound.unused_of_held (h : s.Sound) (hw : s.owners o = some w) (hc : w.channel = none)
    (hheld : s.fds w.fd = some (.owner o)) : s.Unused w.fd := by
  refine ⟨fun {o' v} hv hvc heq => ?_, fun hl heq => ?_⟩
  · have hheld' := h.held hv hvc
    rw [heq, hheld] at hheld'
    cases hheld'
    rw [hw] at hv
    cases hv
    rw [hc] at hvc
    cases hvc
  · have hepoll := h.epoll hl
    rw [heq, hheld] at hepoll
    cases hepoll

/-- An owner without a channel is gone. -/
theorem Sound.removeOwner (h : s.Sound) (hw : s.owners o = some w) (hc : w.channel = none) :
    Sound { s with owners := Function.update s.owners o none } := by
  have hne : ∀ {o' v}, s.owners o' = some v → v.channel.isSome = true → o' ≠ o := by
    rintro o' v hv hvc rfl
    rw [hw] at hv
    cases hv
    rw [hc] at hvc
    cases hvc
  refine ⟨fun hl fd' o' => ?_, fun {loop l} hl fd' => ?_, fun hv hvc => h.held (of_update_none hv).2 hvc,
    h.epoll, fun o' ho' => update_none_of_none (h.fresh o' ho') o, h.freshLoop,
    fun hv => h.loop_lt (of_update_none hv).2, h.log⟩
  · rw [h.channels_iff hl]
    constructor
    · rintro ⟨v, hv, hvc, hrest⟩
      exact ⟨v, (Function.update_of_ne (hne hv hvc) _ _).trans hv, hvc, hrest⟩
    · rintro ⟨v, hv, hrest⟩
      exact ⟨v, (of_update_none hv).2, hrest⟩
  · rw [h.interest_eq hl]
    cases hm : l.channels fd' with
    | none => rfl
    | some o' =>
      obtain ⟨v, hv, hvc, -⟩ := (h.channels_iff hl fd' o').mp hm
      simp only [Option.bind_some, mask, Function.update_of_ne (hne hv hvc)]

/-! ## New owners, new loops, loops that go -/

theorem Sound.unused_of_other (h : s.Sound) (hfd : s.fds fd = some .other) : s.Unused fd :=
  h.unused (by simp [hfd]) (by simp [hfd])

/-- What `update_channel` does for a new channel. -/
theorem Sound.createOwner_eq (h : s.Sound) (hfd : s.fds fd = some .other) (hl : s.loops loop = some l)
    (ht : l.thread = t) (kind : OwnerKind) (c : Channel) :
    (s.addOwner ⟨kind, loop, fd, some c, none⟩).updateChannel t loop fd s.created events true =
      ((s.addOwner ⟨kind, loop, fd, some c, none⟩).setLoop loop { l with
        channels := Function.update l.channels fd (some s.created)
        interest := Function.update l.interest fd (some (s.created, events)) }).record
        [.ctl .add fd s.created true none] := by
  have hm : l.channels fd = none := h.channels_eq_none (h.unused_of_other hfd) hl
  have hopen : ((s.addOwner ⟨kind, loop, fd, some c, none⟩).fds fd).isSome = true := by simp [addOwner]
  exact updateChannel_add hl ht hm hopen (h.interest_eq_none hl hm)

theorem Sound.createOwner (h : s.Sound) (hfd : s.fds fd = some .other) (hl : s.loops loop = some l)
    (ht : l.thread = t) (kind : OwnerKind) (c : Channel) :
    ((s.addOwner ⟨kind, loop, fd, some c, none⟩).updateChannel t loop fd s.created c.events true).Sound := by
  have htaken : Sound { s with
      fds := Function.update s.fds fd (some (.owner s.created)), created := s.created + 1 } := by
    have hset := h.setFd (h.unused_of_other hfd) (some (.owner s.created))
    exact { hset with fresh := fun o ho => hset.fresh o (Nat.le_of_succ_le ho) }
  have hput := htaken.putOwner (o := s.created) (v := ⟨kind, loop, fd, some c, none⟩) hl
    (fun w hw => by
      have hnone : s.owners s.created = none := h.fresh _ (Nat.le_refl _)
      rw [show s.owners s.created = some w from hw] at hnone
      cases hnone) (Nat.lt_succ_self _) (Function.update_self ..)
  rw [h.createOwner_eq hfd hl ht]
  exact hput.record (by simp [PollerEvent.Ok])

theorem Sound.createLoop (h : s.Sound) (hfd : s.fds fd = some .other) (t : Nat) :
    Sound { s with
      fds := Function.update s.fds fd (some (.epoll s.loopsCreated))
      loops := Function.update s.loops s.loopsCreated (some ⟨t, fd, fun _ => none, fun _ => none⟩)
      loopsCreated := s.loopsCreated + 1 } := by
  have hset := h.setFd (h.unused_of_other hfd) (some (.epoll s.loopsCreated))
  refine ⟨fun hl fd' o => ?_, fun hl fd' => ?_, hset.held, fun hl => ?_, h.fresh, fun loop hloop => ?_,
    fun hw => Nat.lt_succ_of_lt (h.loop_lt hw), h.log⟩
  · rcases of_update_some hl with ⟨rfl, rfl⟩ | ⟨-, hl⟩
    · refine iff_of_false (fun hm => by cases hm) ?_
      rintro ⟨w, hw, -, hwl, -⟩
      exact absurd (h.loop_lt hw) (by omega)
    · exact h.channels_iff hl fd' o
  · rcases of_update_some hl with ⟨rfl, rfl⟩ | ⟨-, hl⟩
    · rfl
    · exact h.interest_eq hl fd'
  · rcases of_update_some hl with ⟨rfl, rfl⟩ | ⟨-, hl⟩
    · exact Function.update_self ..
    · exact hset.epoll hl
  · have hle : s.loopsCreated + 1 ≤ loop := hloop
    exact (Function.update_of_ne (by omega) _ _).trans (h.freshLoop loop (by omega))

theorem Sound.dropLoop (h : s.Sound) (loop : Nat) : (s.dropLoop loop).Sound :=
  ⟨fun hl => h.channels_iff (of_update_none hl).2, fun hl => h.interest_eq (of_update_none hl).2, h.held,
    fun hl => h.epoll (of_update_none hl).2, h.fresh,
    fun loop' hloop => update_none_of_none (h.freshLoop loop' hloop) loop, h.loop_lt, h.log⟩

/-! ## Destructors -/

/-- An owner whose destructor has not begun has its channel; after that, what is left of the
destructor is in order, and runs on the thread of the loop, which exists. -/
def Tidy (s : Process) (o : Nat) (w : ChannelOwner) : Prop :=
  match w.destructor with
  | none => w.channel.isSome = true
  | some (t, rest) =>
    (rest ≠ [] → s.loopThread w.loop = some t) ∧
      orderly w.channel.isSome (s.fds w.fd = some (.owner o)) rest = true

def AllTidy (s : Process) : Prop := ∀ o w, s.owners o = some w → s.Tidy o w

theorem tidy_of_destructor {rest : List Teardown} (hd : w.destructor = some (t, rest)) :
    s.Tidy o w ↔ (rest ≠ [] → s.loopThread w.loop = some t) ∧
      orderly w.channel.isSome (s.fds w.fd = some (.owner o)) rest = true := by
  unfold Tidy
  rw [hd]

/-- Nothing happens to the owners but `o`, their descriptors and the loops whose owners are being
destroyed. -/
theorem AllTidy.frame {s' : Process} (h : s.AllTidy)
    (howners : ∀ o' ≠ o, s'.owners o' = s.owners o')
    (hfds : ∀ o' ≠ o, ∀ fd, s'.fds fd = some (.owner o') ↔ s.fds fd = some (.owner o'))
    (hthread : ∀ o' ≠ o, ∀ w t rest, s.owners o' = some w → w.destructor = some (t, rest) →
      s.loopThread w.loop = some t → s'.loopThread w.loop = some t)
    (hself : ∀ w, s'.owners o = some w → s'.Tidy o w) : s'.AllTidy := by
  intro o' w hw
  by_cases heq : o' = o
  · subst heq
    exact hself w hw
  · rw [howners o' heq] at hw
    have htidy := h o' w hw
    cases hd : w.destructor with
    | none =>
      unfold Tidy at htidy ⊢
      rw [hd] at htidy ⊢
      exact htidy
    | some d =>
      rw [tidy_of_destructor hd] at htidy ⊢
      refine ⟨fun hne => hthread o' heq w d.1 d.2 hw hd (htidy.1 hne), ?_⟩
      simp only [hfds o' heq w.fd]
      exact htidy.2

theorem loopThread_setLoop {l' : LoopPoller} (hl : s.loops loop = some l) (ht : l'.thread = l.thread)
    (loop' : Nat) : (s.setLoop loop l').loopThread loop' = s.loopThread loop' := by
  unfold loopThread
  by_cases heq : loop' = loop
  · subst heq
    rw [setLoop_loops_self, hl, Option.map_some, Option.map_some, ht]
  · rw [setLoop_loops_of_ne heq]

theorem exists_loop (h : s.loopThread loop = some t) : ∃ l, s.loops loop = some l ∧ l.thread = t :=
  Option.map_eq_some_iff.mp h

/-- A descriptor passes between hands that are no owner's, or to a new owner. -/
theorem owner_update {x : Option FdHolder} (hfd : s.fds fd ≠ some (.owner o)) (hx : x ≠ some (.owner o))
    (fd' : Nat) : Function.update s.fds fd x fd' = some (.owner o) ↔ s.fds fd' = some (.owner o) := by
  by_cases heq : fd' = fd
  · subst heq
    rw [Function.update_self]
    exact iff_of_false hx hfd
  · rw [Function.update_of_ne heq]

theorem AllTidy.of_eq {s' : Process} (h : s.AllTidy) (howners : s'.owners = s.owners)
    (hfds : s'.fds = s.fds) (hthread : ∀ loop, s'.loopThread loop = s.loopThread loop) : s'.AllTidy := by
  intro o w hw
  rw [howners] at hw
  have htidy := h o w hw
  unfold Tidy at htidy ⊢
  rw [hfds, hthread]
  exact htidy

theorem AllTidy.setOwner {v : ChannelOwner} (h : s.AllTidy) (hv : s.Tidy o v) :
    (s.setOwner o v).AllTidy := by
  refine h.frame (fun o' hne => setOwner_owners_of_ne hne) (fun _ _ _ => Iff.rfl)
    (fun _ _ _ _ _ _ _ hth => hth) fun w hw => ?_
  obtain rfl := Option.some.inj (setOwner_owners_self.symm.trans hw)
  exact hv

theorem AllTidy.setChannel (hT : s.AllTidy) (h : s.Sound) (hw : s.owners o = some w)
    (hc : w.channel = some c) (hl : s.loops w.loop = some l) (ht : l.thread = t) {v : ChannelOwner}
    (hv : s.Tidy o v) : ((s.setOwner o v).updateChannel t w.loop w.fd o events true).AllTidy := by
  rw [h.updateChannel_eq hw hc hl ht]
  exact (hT.setOwner hv).of_eq rfl rfl (loopThread_setLoop hl rfl)

theorem AllTidy.dropChannel (hT : s.AllTidy) (h : s.Sound) (hw : s.owners o = some w)
    (hc : w.channel = some c) (hl : s.loops w.loop = some l) (ht : l.thread = t) {v : ChannelOwner}
    (hv : s.Tidy o v) :
    (((s.setOwner o v).updateChannel t w.loop w.fd o events true).removeChannel
      t w.loop w.fd o).AllTidy := by
  rw [h.dropChannel_eq hw hc hl ht]
  exact (hT.setOwner hv).of_eq rfl rfl (loopThread_setLoop hl rfl)

theorem AllTidy.createOwner (hT : s.AllTidy) (h : s.Sound) (hfd : s.fds fd = some .other)
    (hl : s.loops loop = some l) (ht : l.thread = t) (kind : OwnerKind) (c : Channel) :
    ((s.addOwner ⟨kind, loop, fd, some c, none⟩).updateChannel
      t loop fd s.created events true).AllTidy := by
  have hadd : (s.addOwner ⟨kind, loop, fd, some c, none⟩).AllTidy := by
    refine hT.frame (o := s.created) (fun o' hne => Function.update_of_ne hne _ _)
      (fun o' hne fd' => owner_update (by simp [hfd]) (by simp [hne.symm]) fd')
      (fun _ _ _ _ _ _ _ hth => hth) fun w hw => ?_
    obtain rfl := Option.some.inj (addOwner_owners_self.symm.trans hw)
    rfl
  rw [h.createOwner_eq hfd hl ht]
  exact hadd.of_eq rfl rfl (loopThread_setLoop hl rfl)

/-- An owner closes its descriptor after its channel has gone. -/
theorem closeFd_sound (h : s.Sound) (hT : s.AllTidy) (hw : s.owners o = some w) (hc : w.channel = none)
    (hheld : s.fds w.fd = some (.owner o)) {rest : List Teardown} (hth : s.loopThread w.loop = some t)
    (hrest : orderly false false rest = true) :
    (((s.setOwner o { w with destructor := some (t, rest) }).record
      [.closed w.fd o (s.registered o w)]).close w.fd).Sound ∧
    (((s.setOwner o { w with destructor := some (t, rest) }).record
      [.closed w.fd o (s.registered o w)]).close w.fd).AllTidy := by
  obtain ⟨l, hl, -⟩ := exists_loop hth
  have hreg : s.registered o w = false := by
    rw [Process.registered, hl]
    refine decide_eq_false fun hm => ?_
    obtain ⟨w', hw', hchannel, -⟩ := (h.channels_iff hl w.fd o).mp hm
    rw [hw] at hw'
    cases hw'
    rw [hc] at hchannel
    cases hchannel
  have hadvance : (s.setOwner o { w with destructor := some (t, rest) }).Sound :=
    h.setOwner hw rfl rfl rfl
  have hrecord : ((s.setOwner o { w with destructor := some (t, rest) }).record
      [.closed w.fd o (s.registered o w)]).Sound := hadvance.record (by simp [PollerEvent.Ok, hreg])
  have hu := hrecord.unused_of_held (w := { w with destructor := some (t, rest) })
    setOwner_owners_self hc hheld
  rw [hrecord.close_eq hu]
  refine ⟨hrecord.setFd hu none, ?_⟩
  refine hT.frame (fun _ hne => setOwner_owners_of_ne hne) (fun o' hne fd' => ?_)
    (fun _ _ _ _ _ _ _ hth' => hth') fun w' hw' => ?_
  · refine owner_update (fun heq => hne ?_) (by simp) fd'
    rw [show s.fds w.fd = some (.owner o') from heq] at hheld
    cases hheld
    rfl
  · obtain rfl := Option.some.inj (setOwner_owners_self.symm.trans hw')
    refine (tidy_of_destructor rfl).mpr ⟨fun _ => hth, ?_⟩
    simpa [hc] using hrest

/-- The poller of a loop goes, with no other destructor of the loop's owners running. -/
theorem poller_sound (h : s.Sound) (hT : s.AllTidy) (hw : s.owners o = some w) (hc : w.channel = none)
    (hl : s.loops w.loop = some l) (hth : s.loopThread w.loop = some t)
    (hidle : s.anyOwner (fun o' w' => o' ≠ o ∧ w'.loop = w.loop ∧ w'.destructor.any (·.1 = t)) = false) :
    (((s.setOwner o { w with destructor := some (t, []) }).dropLoop w.loop).close l.epollFd).Sound ∧
    (((s.setOwner o { w with destructor := some (t, []) }).dropLoop w.loop).close l.epollFd).AllTidy := by
  have hadvance : (s.setOwner o { w with destructor := some (t, []) }).Sound :=
    h.setOwner hw rfl rfl rfl
  have hdrop := hadvance.dropLoop w.loop
  have hheld : s.fds l.epollFd = some (.epoll w.loop) := h.epoll hl
  have hu : ((s.setOwner o { w with destructor := some (t, []) }).dropLoop w.loop).Unused l.epollFd := by
    refine ⟨fun {o' v} hv hvc heq => ?_, fun {loop l'} hl' heq => ?_⟩
    · have hheld' : s.fds v.fd = some (.owner o') := hdrop.held hv hvc
      rw [heq, hheld] at hheld'
      cases hheld'
    · have hheld' : s.fds l'.epollFd = some (.epoll loop) := hdrop.epoll hl'
      rw [heq, hheld] at hheld'
      cases hheld'
      have hnone : Function.update s.loops w.loop none w.loop = none := Function.update_self ..
      cases hnone.symm.trans hl'
  rw [hdrop.close_eq hu]
  refine ⟨hdrop.setFd hu none, ?_⟩
  refine hT.frame (fun _ hne => setOwner_owners_of_ne hne) (fun o' hne fd' => ?_)
    (fun o' hne w' t' rest' hw' hd' hth' => ?_) fun w' hw' => ?_
  · refine owner_update (fun heq => ?_) (by simp) fd'
    rw [show s.fds l.epollFd = some (.owner o') from heq] at hheld
    cases hheld
  · -- another destructor of this loop would run on this thread
    have hloop : w'.loop ≠ w.loop := by
      intro heq
      have hother := anyOwner_eq_false hidle (h.created_lt hw') hw'
      rw [heq, hth] at hth'
      cases hth'
      simp [hne, heq, hd'] at hother
    show Option.map _ (Function.update s.loops w.loop none w'.loop) = some t'
    rw [Function.update_of_ne hloop]
    exact hth'
  · obtain rfl := Option.some.inj (setOwner_owners_self.symm.trans hw')
    exact (tidy_of_destructor rfl).mpr ⟨fun hne => absurd rfl hne, by rw [hc]; rfl⟩

/-- **A statement of a destructor in order.** -/
theorem teardown_sound {s' : Process} {stmt : Teardown} {rest : List Teardown} (h : s.Sound)
    (hT : s.AllTidy) (hw : s.owners o = some w) (hd : w.destructor = some (t, stmt :: rest))
    (hs : s.teardown t o w rest stmt = some s') : s'.Sound ∧ s'.AllTidy := by
  obtain ⟨hthread, hord⟩ := (tidy_of_destructor hd).mp (hT o w hw)
  have hth : s.loopThread w.loop = some t := hthread (List.cons_ne_nil _ _)
  clear hthread
  obtain ⟨l, hl, ht⟩ := exists_loop hth
  have hnext : ∀ {v : ChannelOwner}, v.destructor = some (t, rest) →
      (s.Tidy o v ↔ (rest ≠ [] → s.loopThread v.loop = some t) ∧
        orderly v.channel.isSome (s.fds v.fd = some (.owner o)) rest = true) := tidy_of_destructor
  have hadvance : (s.setOwner o { w with destructor := some (t, rest) }).Sound :=
    h.setOwner hw rfl rfl rfl
  cases stmt with
  | userCode =>
    cases hs
    exact ⟨hadvance, hT.setOwner ((hnext rfl).mpr ⟨fun _ => hth, hord⟩)⟩
  | timerQueue =>
    simp only [teardown] at hs
    split at hs
    · cases hs
    · cases hs
      exact ⟨hadvance, hT.setOwner ((hnext rfl).mpr ⟨fun _ => hth, hord⟩)⟩
  | disableAll =>
    simp only [orderly, Bool.and_eq_true] at hord
    obtain ⟨⟨hchannel, -⟩, hrest⟩ := hord
    obtain ⟨c, hc⟩ := Option.isSome_iff_exists.mp hchannel
    simp only [teardown, hc, Option.some.injEq] at hs
    subst hs
    rw [hc] at hrest
    exact ⟨h.setChannel hw hc hl ht c.disableAll (some (t, rest)),
      hT.setChannel h hw hc hl ht ((hnext rfl).mpr ⟨fun _ => hth, hrest⟩)⟩
  | channel =>
    simp only [orderly, Bool.and_eq_true] at hord
    obtain ⟨⟨hchannel, -⟩, hrest⟩ := hord
    obtain ⟨c, hc⟩ := Option.isSome_iff_exists.mp hchannel
    simp only [teardown, hc, Option.some.injEq] at hs
    subst hs
    exact ⟨h.dropChannel hw hc hl ht (some (t, rest)),
      hT.dropChannel h hw hc hl ht ((hnext rfl).mpr ⟨fun _ => hth, hrest⟩)⟩
  | closeFd =>
    simp only [orderly, Bool.and_eq_true, decide_eq_true_eq, Bool.not_eq_true',
      Option.isSome_eq_false_iff, Option.isNone_iff_eq_none] at hord
    obtain ⟨⟨hc, hheld⟩, hrest⟩ := hord
    cases hs
    rw [hc] at hrest
    exact closeFd_sound h hT hw hc hheld hth hrest
  | poller =>
    simp only [orderly, Bool.and_eq_true, Bool.not_eq_true', Option.isSome_eq_false_iff,
      Option.isNone_iff_eq_none, List.isEmpty_iff] at hord
    obtain ⟨hc, rfl⟩ := hord
    simp only [teardown, hl] at hs
    split at hs
    · cases hs
    · rename_i hbusy
      cases hs
      exact poller_sound h hT hw hc hl hth (Bool.not_eq_true _ ▸ hbusy)

/-! ## Runs -/

/-- No owner is touched by what only moves a descriptor. -/
theorem AllTidy.moveFd {s' : Process} {x : Option FdHolder} {fd : Nat} (hT : s.AllTidy) (h : s.Sound)
    (howners : s'.owners = s.owners) (hfds : s'.fds = Function.update s.fds fd x)
    (hfd : ∀ o, s.fds fd ≠ some (.owner o)) (hx : ∀ o, x ≠ some (.owner o))
    (hthread : ∀ loop < s.loopsCreated, s'.loopThread loop = s.loopThread loop) : s'.AllTidy := by
  refine hT.frame (o := s.created) (fun o' _ => by rw [howners])
    (fun o' _ fd' => by rw [hfds]; exact owner_update (hfd o') (hx o') fd')
    (fun o' _ w _ _ hw _ hth => by rw [hthread _ (h.loop_lt hw), hth]) fun w hw => ?_
  rw [howners, h.fresh _ (Nat.le_refl _)] at hw
  cases hw

theorem step_openFd {s' : Process} {t fd : Nat} (h : s.Sound) (hT : s.AllTidy)
    (hs : s.step (t, .openFd fd) = some s') : s'.Sound ∧ s'.AllTidy := by
  simp only [step] at hs
  split at hs
  · rename_i hfree
    cases hs
    exact ⟨h.setFd (h.unused (by simp [hfree]) (by simp [hfree])) _,
      hT.moveFd h rfl rfl (by simp [hfree]) (by simp) fun _ _ => rfl⟩
  · cases hs

theorem step_closeFd {s' : Process} {t fd : Nat} (h : s.Sound) (hT : s.AllTidy)
    (hs : s.step (t, .closeFd fd) = some s') : s'.Sound ∧ s'.AllTidy := by
  simp only [step] at hs
  split at hs
  · rename_i hother
    cases hs
    rw [h.close_eq (h.unused_of_other hother)]
    exact ⟨h.setFd (h.unused_of_other hother) _,
      hT.moveFd h rfl rfl (by simp [hother]) (by simp) fun _ _ => rfl⟩
  · cases hs

theorem step_createLoop {s' : Process} {t fd : Nat} (h : s.Sound) (hT : s.AllTidy)
    (hs : s.step (t, .createLoop fd) = some s') : s'.Sound ∧ s'.AllTidy := by
  simp only [step] at hs
  split at hs
  · rename_i hother
    cases hs
    refine ⟨h.createLoop hother.1 t,
      hT.moveFd h rfl rfl (by simp [hother.1]) (by simp) fun loop hlt => ?_⟩
    show Option.map _ (Function.update s.loops s.loopsCreated _ loop) = s.loopThread loop
    rw [Function.update_of_ne (Nat.ne_of_lt hlt)]
    rfl
  · cases hs

theorem step_create {s' : Process} {t : Nat} {kind : OwnerKind} {loop fd : Nat} {room : Bool}
    (h : s.Sound) (hT : s.AllTidy) (hg : s.Proper (t, .create kind loop fd room))
    (hs : s.step (t, .create kind loop fd room) = some s') : s'.Sound ∧ s'.AllTidy := by
  obtain ⟨hth, rfl⟩ := hg
  obtain ⟨l, hl, ht⟩ := exists_loop hth
  simp only [step] at hs
  split at hs
  · rename_i hother
    cases hs
    exact ⟨h.createOwner hother.1 hl ht kind _, hT.createOwner h hother.1 hl ht kind _⟩
  · cases hs

theorem step_change {s' : Process} {t o : Nat} {change : InterestChange} (h : s.Sound)
    (hT : s.AllTidy) (hs : s.step (t, .change o change) = some s') : s'.Sound ∧ s'.AllTidy := by
  simp only [step] at hs
  split at hs
  · cases hs
  rename_i w hw
  split at hs
  · cases hs
  rename_i c hc
  split at hs
  · rename_i hth
    cases hs
    obtain ⟨l, hl, ht⟩ := exists_loop hth
    have htidy := hT o w hw
    have hv : s.Tidy o { w with channel := some (change.apply c) } := by
      unfold Tidy at htidy ⊢
      rw [hc] at htidy
      exact htidy
    exact ⟨h.setChannel hw hc hl ht (change.apply c) w.destructor, hT.setChannel h hw hc hl ht hv⟩
  · cases hs

/-- A destructor that begins on the owner's own loop has its statements in the right order. -/
theorem step_destroy {s' : Process} {t o : Nat} (h : s.Sound) (hT : s.AllTidy)
    (hg : s.Proper (t, .destroy o)) (hs : s.step (t, .destroy o) = some s') :
    s'.Sound ∧ s'.AllTidy := by
  simp only [step] at hs
  split at hs
  · cases hs
  rename_i w hw
  split at hs
  · rename_i hmay
    cases hs
    obtain ⟨hkind, hth⟩ := hg w hw
    have hchannel : w.channel.isSome = true := by
      have htidy := hT o w hw
      unfold Tidy at htidy
      rw [hmay.1] at htidy
      exact htidy
    have hord : orderly w.channel.isSome (s.fds w.fd = some (.owner o)) w.kind.destructor = true := by
      rw [hchannel, decide_eq_true (h.held hw hchannel)]
      exact (orderly_iff w.kind).mpr hkind
    exact ⟨h.setOwner hw rfl rfl rfl,
      hT.setOwner ((tidy_of_destructor rfl).mpr ⟨fun _ => hth, hord⟩)⟩
  · cases hs

/-- A destructor that has run all its statements leaves no channel behind. -/
theorem teardown_done {o : Nat} {w : ChannelOwner} {t : Nat} (h : s.Sound) (hT : s.AllTidy)
    (hw : s.owners o = some w) (hd : w.destructor = some (t, [])) :
    ({ s with owners := Function.update s.owners o none } : Process).Sound ∧
      ({ s with owners := Function.update s.owners o none } : Process).AllTidy := by
  obtain ⟨-, hord⟩ := (tidy_of_destructor hd).mp (hT o w hw)
  have hc : w.channel = none := by simpa [orderly] using hord
  refine ⟨h.removeOwner hw hc, hT.frame (o := o) (fun o' hne => Function.update_of_ne hne _ _)
    (fun _ _ _ => Iff.rfl) (fun _ _ _ _ _ _ _ hth => hth) fun w' hw' => ?_⟩
  have hnone : Function.update s.owners o none o = none := Function.update_self ..
  cases hnone.symm.trans hw'

/-- **Step lemma.** -/
theorem step_sound {s' : Process} {a : Nat × ProcessAction} (h : s.Sound) (hT : s.AllTidy)
    (hg : s.Proper a) (hs : s.step a = some s') : s'.Sound ∧ s'.AllTidy := by
  obtain ⟨t, a⟩ := a
  cases a with
  | openFd fd => exact step_openFd h hT hs
  | closeFd fd => exact step_closeFd h hT hs
  | createLoop fd => exact step_createLoop h hT hs
  | create kind loop fd room => exact step_create h hT hg hs
  | change o change => exact step_change h hT hs
  | destroy o => exact step_destroy h hT hg hs
  | teardown o =>
    simp only [step] at hs
    split at hs
    · cases hs
    rename_i w hw
    split at hs
    · cases hs
    rename_i t' stmts hd
    split at hs
    · rename_i heq
      subst heq
      split at hs
      · cases hs
        exact teardown_done h hT hw hd
      · exact teardown_sound h hT hw hd hs
    · cases hs

theorem sound_of_reaches (h : process.Reaches Proper s) : s.Sound ∧ s.AllTidy := by
  have hinit : process.init.Sound ∧ process.init.AllTidy := ⟨sound_create, fun _ _ hw => by cases hw⟩
  exact h.invariant (I := fun s => s.Sound ∧ s.AllTidy) hinit
    fun s a s' hI hg hs => step_sound hI.1 hI.2 hg hs

/-- **A channel's descriptor outlives its registration** in every run in which owners come and go on
the thread of their loop while it exists, the kernel has memory for the registrations, and no
`BinaryRpcChannel` of a loop is destroyed. -/
theorem fd_outlives_registration (h : process.Reaches Proper s) : s.FdOutlivesRegistration := by
  obtain ⟨hS, -⟩ := sound_of_reaches h
  refine ⟨fun fd o registered he => hS.log _ he, fun op fd o opened mapped he hne => ?_,
    fun a he => hS.log _ he, fun o he => hS.log _ he, fun loop l fd o hl hm => ?_,
    fun loop l fd o m hl hint => ?_⟩
  · exact (hS.log _ he).resolve_left hne
  · obtain ⟨w, hw, hchannel, rfl, rfl⟩ := (hS.channels_iff hl fd o).mp hm
    obtain ⟨c, hc⟩ := Option.isSome_iff_exists.mp hchannel
    obtain ⟨hheld, -, hint⟩ := hS.registered hw hc hl
    exact ⟨w, c, hw, hc, rfl, rfl, hheld, hint⟩
  · rw [hS.interest_eq hl] at hint
    obtain ⟨o', hm, hmask⟩ := Option.bind_eq_some_iff.mp hint
    obtain ⟨_, _, hpair⟩ := Option.map_eq_some_iff.mp hmask
    cases hpair
    exact hm

/-- A connection is destroyed, its callbacks open a file, another connection gets the number of its
descriptor, and then the loop goes. -/
def reusedDescriptor : List (Nat × ProcessAction) :=
  [(0, .openFd 3), (0, .createLoop 3), (0, .openFd 4), (0, .create .eventLoop 0 4 true),
    (0, .openFd 5), (0, .create .timerQueue 0 5 true), (0, .openFd 6),
    (0, .create .tcpConnection 0 6 true), (0, .change 2 .enableWriting), (0, .destroy 2),
    (0, .teardown 2), (1, .openFd 7), (0, .teardown 2), (0, .teardown 2), (1, .openFd 6),
    (0, .create .tcpConnection 0 6 true), (0, .teardown 2)]

theorem fd_outlives_registration_reusedDescriptor :
    ∃ s ∈ process.run process.init reusedDescriptor,
      s.owners 2 = none ∧ s.fds 6 = some (.owner 3) ∧ s.FdOutlivesRegistration := by
  have hg : process.Admits Proper process.init reusedDescriptor := by decide
  obtain ⟨s, hs, hgone, hreused⟩ : ∃ s ∈ process.run process.init reusedDescriptor,
      s.owners 2 = none ∧ s.fds 6 = some (.owner 3) := by
    decide
  exact ⟨s, hs, hgone, hreused, fd_outlives_registration (.of_run _ hs hg)⟩

/-- A loop destroys its only `BinaryRpcChannel`; the coroutine that the cleanup resumes connects
again, and gets the same descriptor number. -/
def reconnectInCleanup : List (Nat × ProcessAction) :=
  [(0, .openFd 3), (0, .createLoop 3), (0, .openFd 4), (0, .create .eventLoop 0 4 true),
    (0, .openFd 5), (0, .create .timerQueue 0 5 true), (0, .openFd 6),
    (0, .create .binaryRpcChannel 0 6 true), (0, .destroy 2), (0, .teardown 2), (0, .teardown 2),
    (0, .openFd 6), (0, .create .binaryRpcChannel 0 6 true), (0, .teardown 2), (0, .teardown 2)]

/-- **A `BinaryRpcChannel` closes before its channel is unregistered**: the channel of the next owner
of the number is taken for the old one, and then the old one drops it from `channels_`. -/
theorem closed_before_unregistered :
    (∃ s ∈ process.run process.init reconnectInCleanup,
      .closed 6 2 true ∈ s.log ∧ .fired .sameChannel ∈ s.log ∧ .ctl .del 6 2 true (some 2) ∈ s.log ∧
        s.fds 6 = some (.owner 3) ∧ ∀ l ∈ s.loops 0, l.channels 6 = none) ∧
    ¬∀ s : Process, process.Reachable s → s.FdOutlivesRegistration := by
  have hrun : ∃ s ∈ process.run process.init reconnectInCleanup,
      .closed 6 2 true ∈ s.log ∧ .fired .sameChannel ∈ s.log ∧ .ctl .del 6 2 true (some 2) ∈ s.log ∧
        s.fds 6 = some (.owner 3) ∧ ∀ l ∈ s.loops 0, l.channels 6 = none := by
    decide
  refine ⟨hrun, fun h => ?_⟩
  obtain ⟨s, hs, hclosed, -⟩ := hrun
  cases (h s (.of_run _ hs)).closed _ _ _ hclosed

/-! ## Every destruction of a `BinaryRpcChannel` -/

@[simp] theorem updateChannel_owners (room : Bool) :
    (s.updateChannel t loop fd o events room).owners = s.owners := by
  unfold updateChannel
  split <;> rfl

@[simp] theorem removeChannel_owners : (s.removeChannel t loop fd o).owners = s.owners := by
  unfold removeChannel
  split <;> rfl

/-- An owner has its channel until its destructor has begun. -/
def Whole (s : Process) : Prop :=
  ∀ o w, s.owners o = some w → w.destructor = none → w.channel.isSome = true

theorem Whole.put {s' : Process} {x : Option ChannelOwner} (h : s.Whole)
    (howners : s'.owners = Function.update s.owners o x)
    (hx : ∀ w ∈ x, w.destructor = none → w.channel.isSome = true) : s'.Whole := by
  intro o' w hw
  rw [howners] at hw
  by_cases heq : o' = o
  · subst heq
    rw [Function.update_self] at hw
    exact hx w hw
  · rw [Function.update_of_ne heq] at hw
    exact h o' w hw

theorem Whole.teardown {s' : Process} {stmt : Teardown} {rest : List Teardown} (h : s.Whole)
    (hs : s.teardown t o w rest stmt = some s') : s'.Whole := by
  have hput : ∃ v : ChannelOwner, v.destructor = some (t, rest) ∧
      s'.owners = Function.update s.owners o (some v) := by
    cases stmt with
    | userCode | closeFd =>
      cases hs
      exact ⟨{ w with destructor := some (t, rest) }, rfl, rfl⟩
    | disableAll =>
      simp only [Process.teardown] at hs
      split at hs
      · cases hs
        exact ⟨{ w with destructor := some (t, rest) }, rfl, rfl⟩
      · cases hs
        exact ⟨_, rfl, by rw [updateChannel_owners]; rfl⟩
    | channel =>
      simp only [Process.teardown] at hs
      split at hs
      · cases hs
        exact ⟨{ w with destructor := some (t, rest) }, rfl, rfl⟩
      · cases hs
        exact ⟨{ w with channel := none, destructor := some (t, rest) }, rfl,
          by rw [removeChannel_owners, updateChannel_owners]; rfl⟩
    | timerQueue =>
      simp only [Process.teardown] at hs
      split at hs
      · cases hs
      · cases hs
        exact ⟨{ w with destructor := some (t, rest) }, rfl, rfl⟩
    | poller =>
      simp only [Process.teardown] at hs
      split at hs
      · cases hs
      · split at hs
        · cases hs
          exact ⟨{ w with destructor := some (t, rest) }, rfl, rfl⟩
        · cases hs
          exact ⟨{ w with destructor := some (t, rest) }, rfl, rfl⟩
  obtain ⟨v, hv, howners⟩ := hput
  refine h.put howners fun w' hw' hnone => ?_
  cases hw'
  rw [hv] at hnone
  cases hnone

theorem Whole.step {s' : Process} {a : Nat × ProcessAction} (h : s.Whole) (hs : s.step a = some s') :
    s'.Whole := by
  obtain ⟨t, a⟩ := a
  cases a with
  | openFd fd | closeFd fd | createLoop fd =>
    simp only [Process.step] at hs
    split at hs
    · cases hs
      exact h
    · cases hs
  | create kind loop fd room =>
    simp only [Process.step] at hs
    split at hs
    · cases hs
      refine h.put (by rw [updateChannel_owners]; rfl) fun w hw _ => ?_
      cases hw
      rfl
    · cases hs
  | change o change =>
    simp only [Process.step] at hs
    split at hs
    · cases hs
    split at hs
    · cases hs
    split at hs
    · cases hs
      refine h.put (by rw [updateChannel_owners]; rfl) fun w hw _ => ?_
      cases hw
      rfl
    · cases hs
  | destroy o =>
    simp only [Process.step] at hs
    split at hs
    · cases hs
    split at hs
    · cases hs
      refine h.put rfl fun w hw hnone => ?_
      cases hw
      cases hnone
    · cases hs
  | teardown o =>
    simp only [Process.step] at hs
    split at hs
    · cases hs
    split at hs
    · cases hs
    split at hs
    · split at hs
      · cases hs
        exact h.put rfl fun w hw _ => by cases hw
      · exact h.teardown hs
    · cases hs

/-- After `update_channel` the channel is in `channels_`, unless the call went wrong. -/
theorem updateChannel_registers (s : Process) (t loop fd o : Nat) (events : EpollEvents) (room : Bool) :
    (∃ a, .fired a ∈ (s.updateChannel t loop fd o events room).log) ∨
      .deadLoop o ∈ (s.updateChannel t loop fd o events room).log ∨
      ∃ l, (s.updateChannel t loop fd o events room).loops loop = some l ∧
        l.channels fd = some o := by
  cases hl : s.loops loop with
  | none => exact .inr (.inl (by simp [updateChannel, hl, record]))
  | some l =>
    by_cases hm : l.channels fd = none ∨ l.channels fd = some o
    · refine .inr (.inr ?_)
      simp only [updateChannel, hl]
      refine ⟨_, setLoop_loops_self, ?_⟩
      rcases hm with hm | hm
      · simp [hm]
      · simp [hm]
    · exact .inl ⟨.sameChannel, by simp [updateChannel, hl, record, assertThat, hm]⟩

/-- **From each destruction of a `BinaryRpcChannel` of a loop a violation follows**, two statements
into the destructor. -/
theorem violation_of_destroy {s' : Process} (h : process.Reachable s) (hw : s.owners o = some w)
    (hkind : w.kind = .binaryRpcChannel) (hs : process.step s (t, .destroy o) = some s') :
    ∃ s'', process.Reachable s'' ∧ ¬s''.FdOutlivesRegistration := by
  have hwhole : s.Whole := h.invariant (fun _ _ hw => by cases hw) fun s a s' hI _ hs => hI.step hs
  have h' : process.Reachable s' := h.step trivial hs
  simp only [process, step, hw] at hs
  split at hs
  · rename_i hmay
    cases hs
    obtain ⟨c, hc⟩ := Option.isSome_iff_exists.mp (hwhole o w hw hmay.1)
    rw [hkind, show OwnerKind.binaryRpcChannel.destructor =
      [.disableAll, .closeFd, .userCode, .channel, .userCode] from rfl] at h'
    have hdisable := h'.step (a := (t, .teardown o)) trivial (by
      simp only [process, step, setOwner_owners_self, if_true, teardown, hc]
      rfl)
    have hclose := hdisable.step (a := (t, .teardown o)) trivial (by
      simp only [process, step, updateChannel_owners, setOwner_owners_self, if_true, teardown]
      rfl)
    refine ⟨_, hclose, fun hgood => ?_⟩
    rcases updateChannel_registers _ t w.loop w.fd o c.disableAll.events true with ⟨a, ha⟩ | hdead | hreg
    · exact hgood.asserted a (List.mem_append_left _ ha)
    · exact hgood.loopAlive o (List.mem_append_left _ hdead)
    · obtain ⟨l, hl, hm⟩ := hreg
      have hclosed := hgood.closed w.fd o _ (List.mem_append_right _ (List.mem_singleton_self _))
      simp only [Process.registered, hl] at hclosed
      simp [hm] at hclosed
  · cases hs

end Process

end Tudou
