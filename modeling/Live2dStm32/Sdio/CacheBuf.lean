import Live2dStm32.Lib.Cache
import Live2dStm32.Sdio.Phase

/-
  `cache_buf` as a system: the two hosts, `mmcsd_mutex`, the DMA of the controllers and the data
  cache, which fills and evicts lines at any moment. The buffer starts on a cache line and is a
  whole number of lines. `mpu_init` makes its memory write-through; nothing here depends on it.

  `bufferOk_of_reach`: in every run in which the DMA stores and fetches for the command in
  progress only, and every byte of a read that ends with RT_EOK is copied after the DMA has
  stored it and from a line that was not cached at that store, `data->buf` gets what the DMA
  stored and the DMA fetches what `data->buf` holds. A line filled between the invalidation and
  the store is copied as it was (`bufferOk_fails_prefetch`): the invalidation after the copy
  comes too late.
-/

namespace Live2dStm32.Sdio.CacheBuf

open Live2dStm32.Kernel Live2dStm32.Lib

abbrev Byte := BitVec 8

def sdioAlignLen : Nat := 32

/-- The cache line of a byte of `cache_buf`. -/
def lineOf (a : Nat) : Nat := a / sdioAlignLen

/-! ## The system -/

inductive HostId where
  | host1
  | host2
  deriving DecidableEq, Repr

/-- A read that is done: `cmd->err`, the size and `data->buf`, and what the DMA stored. -/
structure ReadDone where
  err : Int
  size : Nat
  buf : List Byte
  stored : Nat → Option Byte

/-- A byte fetched by the DMA, and the byte of `data->buf` it stands for, if the command
    writes. -/
structure Fetch where
  got : Byte
  want : Option Byte
  deriving DecidableEq, Repr

/-- `stored` is what the DMA stored since the last write to CMD. -/
structure System where
  host : HostId → Host
  owner : Option HostId
  cacheBuf : Cached Nat Nat Byte
  stored : Nat → Option Byte
  reads : List ReadDone
  fetches : List Fetch

/-- The thread of a host moves, something else happens at a host, the cache fills or evicts a
    line, the DMA of a host stores or fetches a byte. -/
inductive Action where
  | thread (h : HostId)
  | other (h : HostId) (a : Sdio.Action)
  | fill (l : Nat)
  | evict (l : Nat)
  | dmaStore (h : HostId) (a : Nat) (b : Byte)
  | dmaFetch (h : HostId) (a : Nat)

def init (hw : HostId → Hw) (mem : Nat → Byte) : System where
  host h := Sdio.init (hw h)
  owner := none
  cacheBuf := ⟨mem, fun _ => 0, fun _ => false, fun _ => false, fun _ => false⟩
  stored _ := none
  reads := []
  fetches := []

/-! ### The effect of a step on what is shared -/

def ownerAfter (h : HostId) (owner : Option HostId) : Effect → Option HostId
  | .lock => some h
  | .release => none
  | _ => owner

def cacheAfter (p : WritePolicy) (c : Cached Nat Nat Byte) : Effect → Cached Nat Nat Byte
  | .store a b => c.write lineOf p a b
  | .cleanInvalidate => c.cleanInvalidate lineOf
  | _ => c

def storedAfter (stored : Nat → Option Byte) : Effect → Nat → Option Byte
  | .start => fun _ => none
  | _ => stored

/-- The byte a load gives, where the step is one. -/
def System.loaded (s : System) (h : HostId) : Byte :=
  match (s.host h).effect with
  | .load a => s.cacheBuf.view lineOf a
  | _ => 0

/-- A read is done with the invalidation after its copy. -/
def System.readsAfter (s : System) (h : HostId) : List ReadDone :=
  match (s.host h).phase with
  | .copied data err => ⟨err, data.size, data.buf, s.stored⟩ :: s.reads
  | _ => s.reads

def threadMove (p : WritePolicy) (s : System) (h : HostId) : Option System :=
  let e := (s.host h).effect
  if e = .lock ∧ s.owner ≠ none then none
  else
    (threadStep (s.host h) (s.loaded h)).map fun x =>
      { s with
        host := Function.update s.host h x
        owner := ownerAfter h s.owner e
        cacheBuf := cacheAfter p s.cacheBuf e
        stored := storedAfter s.stored e
        reads := s.readsAfter h }

/-- The byte of `data->buf` at `a`, for a command that writes. -/
def System.wanted (s : System) (h : HostId) (a : Nat) : Option Byte :=
  (s.host h).cmd.data.bind fun d => if d.isWrite then d.buf[a]? else none

/-- The DMA runs as the data registers say: DTDIR for the direction, DLEN for the range. -/
def step (p : WritePolicy) (s : System) : Action → Option System
  | .thread h => threadMove p s h
  | .other _ (.thread _) => none
  | .other h a =>
    (Sdio.step (s.host h) a).map fun x => { s with host := Function.update s.host h x }
  | .fill l => some { s with cacheBuf := s.cacheBuf.fill lineOf l }
  | .evict l => some { s with cacheBuf := s.cacheBuf.evict lineOf l }
  | .dmaStore h a b =>
    if (s.host h).hw.dctrl &&& dctrlDtdir ≠ 0 ∧ a < (s.host h).hw.dlen.toNat then
      some { s with
        cacheBuf := s.cacheBuf.store lineOf a b
        stored := Function.update s.stored a (some b) }
    else none
  | .dmaFetch h a =>
    if (s.host h).hw.dctrl &&& dctrlDtdir = 0 ∧ a < (s.host h).hw.dlen.toNat then
      some { s with fetches := ⟨s.cacheBuf.mem a, s.wanted h a⟩ :: s.fetches }
    else none

/-! ## The property and the condition -/

/-- A read that ends with RT_EOK has copied, for every byte, what the DMA stored. -/
def ReadDone.Ok (r : ReadDone) : Prop :=
  r.err = rtEok → ∀ a < r.size, ∃ b, r.stored a = some b ∧ r.buf[a]? = some b

def Fetch.Ok (f : Fetch) : Prop := ∀ b, f.want = some b → f.got = b

structure BufferOk (s : System) : Prop where
  reads : ∀ r ∈ s.reads, r.Ok
  fetches : ∀ f ∈ s.fetches, f.Ok

/-- The DMA works for the command in progress. A byte of a read without error has been stored
    when it is copied, and its line was not cached then, or has been dropped since. -/
def Guard (s : System) : Action → Prop
  | .thread h => match (s.host h).phase with
    | .copying data err i => err = rtEok → i < data.size →
      (s.stored i).isSome = true ∧ s.cacheBuf.stale (lineOf i) = false
    | _ => True
  | .dmaStore h _ _ | .dmaFetch h _ => (s.host h).phase.isMoving = true
  | _ => True

instance (s : System) (a : Action) : Decidable (Guard s a) := by
  unfold Guard
  split
  · split <;> infer_instance
  all_goals infer_instance

/-! ## The invariant -/

/-- What the DMA stored for the command is in memory. -/
def StoredIn (stored : Nat → Option Byte) (c : Cached Nat Nat Byte) : Prop :=
  ∀ a b, stored a = some b → c.mem a = b

/-- Each phase has its part of the buffer in order: the bytes to write as the processor sees
    them, then in memory; the bytes read in memory, then in `data->buf`. Dirty lines are left
    by the first copy only, stale ones by the DMA. -/
def PhaseInv (c : Cached Nat Nat Byte) (stored : Nat → Option Byte) : Phase → Prop
  | .outside | .quiet => c.Clean ∧ c.Fresh
  | .filling data i => c.Fresh ∧ ∀ a < i, c.view lineOf a = data.buf.getD a 0
  | .filled data =>
    c.Fresh ∧ (data.isWrite = true → ∀ a < data.size, c.view lineOf a = data.buf.getD a 0)
  | .ready data =>
    c.Clean ∧ c.Fresh ∧ (data.isWrite = true → ∀ a < data.size, c.mem a = data.buf.getD a 0)
  | .moving data =>
    c.Clean ∧ StoredIn stored c ∧ (data.isRead = false → c.Fresh ∧
      (data.isWrite = true → ∀ a < data.size, c.mem a = data.buf.getD a 0))
  | .copying data err i =>
    c.Clean ∧ StoredIn stored c ∧
      (err = rtEok → ∀ a < i, a < data.size → ∃ b, stored a = some b ∧ data.buf[a]? = some b)
  | .copied data err =>
    c.Clean ∧ (err = rtEok → ∀ a < data.size, ∃ b, stored a = some b ∧ data.buf[a]? = some b)

/-- The phase of the host that has the mutex. -/
def System.phase (s : System) : Phase :=
  match s.owner with
  | none => .outside
  | some h => (s.host h).phase

structure Inv (s : System) : Prop where
  data : ∀ h, DataOk (s.host h)
  excl : ∀ h, s.owner ≠ some h → (s.host h).phase = .outside
  coherent : s.cacheBuf.Coherent lineOf
  phase : PhaseInv s.cacheBuf s.stored s.phase
  ok : BufferOk s

/-! ### What the cache does by itself -/

theorem phaseInv_fill {c : Cached Nat Nat Byte} {stored : Nat → Option Byte} {p : Phase}
    (h : PhaseInv c stored p) (l : Nat) : PhaseInv (c.fill lineOf l) stored p := by
  cases p with
  | outside | quiet => exact ⟨h.1.fill l, h.2.fill l⟩
  | filling data i =>
    exact ⟨h.1.fill l, fun a ha => (Cached.view_fill c l a).trans (h.2 a ha)⟩
  | filled data =>
    exact ⟨h.1.fill l, fun hw a ha => (Cached.view_fill c l a).trans (h.2 hw a ha)⟩
  | ready data =>
    refine ⟨h.1.fill l, h.2.1.fill l, ?_⟩
    rw [Cached.mem_fill]
    exact h.2.2
  | moving data =>
    refine ⟨h.1.fill l, ?_⟩
    rw [StoredIn, Cached.mem_fill]
    exact ⟨h.2.1, fun hr => ⟨(h.2.2 hr).1.fill l, (h.2.2 hr).2⟩⟩
  | copying data err i =>
    refine ⟨h.1.fill l, ?_⟩
    rw [StoredIn, Cached.mem_fill]
    exact h.2
  | copied data err => exact ⟨h.1.fill l, h.2⟩

/-- A clean line is dropped: while there may be dirty ones nothing is stale, so that the
    processor sees the same; later memory does not change. -/
theorem phaseInv_evict {c : Cached Nat Nat Byte} {stored : Nat → Option Byte} {p : Phase}
    (hc : c.Coherent lineOf) (h : PhaseInv c stored p) (l : Nat) :
    PhaseInv (c.evict lineOf l) stored p := by
  cases p with
  | outside | quiet => exact ⟨h.1.evict l, h.2.evict l⟩
  | filling data i =>
    exact ⟨h.1.evict l, fun a ha => (Cached.view_evict hc h.1 l a).trans (h.2 a ha)⟩
  | filled data =>
    exact ⟨h.1.evict l, fun hw a ha => (Cached.view_evict hc h.1 l a).trans (h.2 hw a ha)⟩
  | ready data =>
    refine ⟨h.1.evict l, h.2.1.evict l, ?_⟩
    rw [Cached.mem_evict h.1]
    exact h.2.2
  | moving data =>
    refine ⟨h.1.evict l, ?_⟩
    rw [StoredIn, Cached.mem_evict h.1]
    exact ⟨h.2.1, fun hr => ⟨(h.2.2 hr).1.evict l, (h.2.2 hr).2⟩⟩
  | copying data err i =>
    refine ⟨h.1.evict l, ?_⟩
    rw [StoredIn, Cached.mem_evict h.1]
    exact h.2
  | copied data err => exact ⟨h.1.evict l, h.2⟩

/-! ### The thread of the owner -/

theorem coherent_after {c : Cached Nat Nat Byte} (h : c.Coherent lineOf) (p : WritePolicy)
    (e : Effect) : (cacheAfter p c e).Coherent lineOf := by
  cases e with
  | store a b => exact h.write p a b
  | cleanInvalidate => exact Cached.coherent_cleanInvalidate c
  | _ => exact h

/-- One more byte is copied in. -/
theorem phaseInv_store {c : Cached Nat Nat Byte} {stored : Nat → Option Byte} (p : WritePolicy)
    {data : MmcsdData} {i : Nat} (h : PhaseInv c stored (.filling data i)) :
    PhaseInv (c.write lineOf p i (data.buf.getD i 0)) stored (.filling data (i + 1)) := by
  refine ⟨h.1.write p i _, fun a ha => ?_⟩
  rw [Cached.view_write, Function.update_apply]
  split
  case isTrue he => rw [he]
  case isFalse hne => exact h.2 a (by omega)

/-- One more byte is copied out; it is the one the DMA stored, as its line is neither dirty nor
    stale. -/
theorem phaseInv_load {c : Cached Nat Nat Byte} {stored : Nat → Option Byte}
    (hc : c.Coherent lineOf) {data : MmcsdData} {err : Int} {i : Nat} (hi : i < data.size)
    (hbuf : i < data.buf.length) (h : PhaseInv c stored (.copying data err i))
    (hg : err = rtEok → (stored i).isSome = true ∧ c.stale (lineOf i) = false) :
    PhaseInv c stored
      (.copying { data with buf := data.buf.set i (c.view lineOf i) } err (i + 1)) := by
  obtain ⟨hclean, hin, hdone⟩ := h
  refine ⟨hclean, hin, fun he a ha hsize => ?_⟩
  by_cases hai : a = i
  · subst hai
    obtain ⟨hs, hfresh⟩ := hg he
    obtain ⟨b, hb⟩ := Option.isSome_iff_exists.mp hs
    have hv : c.view lineOf a = b := (Cached.view_eq_mem hc hclean hfresh).trans (hin a b hb)
    refine ⟨b, hb, ?_⟩
    rw [List.getElem?_set_self hbuf, hv]
  · obtain ⟨b, hb, hd⟩ := hdone he a (by omega) hsize
    refine ⟨b, hb, ?_⟩
    rw [List.getElem?_set_ne (Ne.symm hai)]
    exact hd

theorem phaseInv_step {c : Cached Nat Nat Byte} {stored : Nat → Option Byte} {b : Byte}
    {q q' : Phase} {e : Effect} (p : WritePolicy) (hc : c.Coherent lineOf)
    (hstep : PhaseStep b q e q') (h : PhaseInv c stored q)
    (hb : ∀ a, e = .load a → b = c.view lineOf a)
    (hg : ∀ data err i, q = .copying data err i → err = rtEok → i < data.size →
      (stored i).isSome = true ∧ c.stale (lineOf i) = false) :
    PhaseInv (cacheAfter p c e) (storedAfter stored e) q' := by
  cases hstep with
  | lock => exact h
  | lockWrite data => exact ⟨h.2, fun a ha => absurd ha (Nat.not_lt_zero a)⟩
  | lockData hw => exact ⟨h.2, fun hw' => by rw [hw] at hw'; cases hw'⟩
  | quiet he =>
    rcases he with rfl | rfl | rfl
    · exact h
    · exact h
    · exact ⟨Cached.clean_cleanInvalidate c, Cached.fresh_cleanInvalidate c⟩
  | release => exact h
  | store data i => exact phaseInv_store p h
  | filled hi => exact ⟨h.1, fun _ a ha => h.2 a (Nat.lt_of_lt_of_le ha hi)⟩
  | filledStay data => exact h
  | clean data =>
    refine ⟨Cached.clean_cleanInvalidate c, Cached.fresh_cleanInvalidate c, fun hw a ha => ?_⟩
    exact (Cached.mem_cleanInvalidate hc h.1 a).trans (h.2 hw a ha)
  | readyStay data => exact h
  | start data => exact ⟨h.1, fun _ _ hs => (nomatch hs), fun _ => h.2⟩
  | movingStay data => exact h
  | movingDone hr => exact ⟨h.1, (h.2.2 hr).1⟩
  | copying data err => exact ⟨h.1, h.2.1, fun _ a ha => absurd ha (Nat.not_lt_zero a)⟩
  | @load data err i hi hbuf =>
    rw [hb i rfl]
    exact phaseInv_load hc hi hbuf h fun he => hg data err i rfl he hi
  | copied err hi => exact ⟨h.1, fun he a ha => h.2.2 he a (Nat.lt_of_lt_of_le ha hi) ha⟩
  | done data err => exact ⟨Cached.clean_cleanInvalidate c, Cached.fresh_cleanInvalidate c⟩

theorem PhaseStep.effect_outside {b : Byte} {e : Effect} {q : Phase}
    (h : PhaseStep b .outside e q) : e = .lock := by
  cases h <;> rfl

theorem PhaseStep.release_outside {b : Byte} {q q' : Phase} (h : PhaseStep b q .release q') :
    q' = .outside := by
  cases h with
  | quiet he => rcases he with he | he | he <;> cases he
  | release => rfl

/-- A step of a thread: the host moves, and the effect of the step is on what is shared. -/
theorem thread_cases {s s' : System} {p : WritePolicy} {h : HostId}
    (hs : threadMove p s h = some s') :
    ¬ ((s.host h).effect = .lock ∧ s.owner ≠ none) ∧
      ∃ x, threadStep (s.host h) (s.loaded h) = some x ∧
        s' = { s with
          host := Function.update s.host h x
          owner := ownerAfter h s.owner (s.host h).effect
          cacheBuf := cacheAfter p s.cacheBuf (s.host h).effect
          stored := storedAfter s.stored (s.host h).effect
          reads := s.readsAfter h } := by
  obtain ⟨hlock, hs⟩ := Option.ite_none_left_eq_some.mp hs
  obtain ⟨x, hx, rfl⟩ := Option.map_eq_some_iff.mp hs
  exact ⟨hlock, x, hx, rfl⟩

/-- The thread that moves has the mutex or takes it. -/
theorem owner_cases {s : System} {h : HostId} (hi : Inv s) {b : Byte} {q : Phase}
    (hmove : PhaseStep b (s.host h).phase (s.host h).effect q)
    (hlock : ¬ ((s.host h).effect = .lock ∧ s.owner ≠ none)) :
    s.owner = some h ∨ (s.owner = none ∧ (s.host h).effect = .lock) := by
  by_cases ho : s.owner = some h
  · exact Or.inl ho
  · rw [hi.excl h ho] at hmove
    have he := PhaseStep.effect_outside hmove
    exact Or.inr ⟨not_not.mp fun hn => hlock ⟨he, hn⟩, he⟩

/-- It still has the mutex, or released it. -/
theorem ownerAfter_cases {h : HostId} {owner : Option HostId} {e : Effect}
    (ho : owner = some h ∨ (owner = none ∧ e = .lock)) :
    ownerAfter h owner e = some h ∨ (e = .release ∧ ownerAfter h owner e = none) := by
  cases e with
  | lock => exact Or.inl rfl
  | release => exact Or.inr ⟨rfl, rfl⟩
  | _ => exact Or.inl (ho.resolve_right fun hn => nomatch hn.2)

theorem readsAfter_ok {s : System} {h : HostId} (hok : BufferOk s)
    (hp : PhaseInv s.cacheBuf s.stored (s.host h).phase) : ∀ r ∈ s.readsAfter h, r.Ok := by
  unfold System.readsAfter
  cases hq : (s.host h).phase with
  | copied data err =>
    rw [hq] at hp
    intro r hr
    rcases List.mem_cons.mp hr with rfl | hr
    · exact hp.2
    · exact hok.reads r hr
  | _ => exact hok.reads

/-- The step of a thread is a move of the phase of the owner. -/
theorem inv_thread {s s' : System} {p : WritePolicy} {h : HostId} (hi : Inv s)
    (hg : Guard s (.thread h)) (hs : threadMove p s h = some s') : Inv s' := by
  obtain ⟨hlock, x, hx, rfl⟩ := thread_cases hs
  have hmove := threadStep_phase (hi.data h) hx
  have howner := owner_cases hi hmove hlock
  have hafter := ownerAfter_cases howner
  -- the phase of the owner, before and after
  have hold : s.phase = (s.host h).phase := by
    unfold System.phase
    rcases howner with ho | ⟨ho, -⟩
    · rw [ho]
    · rw [ho, hi.excl h (by rw [ho]; exact nofun)]
  have hnew : (match ownerAfter h s.owner (s.host h).effect with
      | none => .outside
      | some h' => (Function.update s.host h x h').phase) = x.phase := by
    rcases hafter with ho | ⟨he, ho⟩
    · rw [ho]
      exact congrArg Host.phase (Function.update_self ..)
    · rw [ho]
      rw [he] at hmove
      exact (PhaseStep.release_outside hmove).symm
  have hp : PhaseInv s.cacheBuf s.stored (s.host h).phase := hold ▸ hi.phase
  refine ⟨fun h' => ?_, fun h' ho' => ?_, coherent_after hi.coherent p _, ?_,
    ⟨readsAfter_ok hi.ok hp, hi.ok.fetches⟩⟩
  · dsimp only
    rw [Function.update_apply]
    split
    · exact dataOk_thread (hi.data h) hx
    · exact hi.data h'
  · dsimp only at ho' ⊢
    by_cases hh : h' = h
    · subst hh
      rw [Function.update_self, ← hnew]
      rcases hafter with ho | ⟨-, ho⟩
      · exact absurd ho ho'
      · rw [ho]
    · rw [Function.update_of_ne hh]
      refine hi.excl h' fun ho => ?_
      rcases howner with hw | ⟨hw, -⟩
      · exact hh (Option.some.inj (ho.symm.trans hw))
      · rw [hw] at ho
        cases ho
  · show PhaseInv _ _ (System.phase _)
    unfold System.phase
    rw [hnew]
    refine phaseInv_step p hi.coherent hmove hp (fun a ha => ?_) fun data err i hq he hsize => ?_
    · unfold System.loaded
      rw [ha]
    · simp only [Guard, hq] at hg
      exact hg he hsize

/-! ### The other moves -/

/-- A host with data on the move has the mutex. -/
theorem Inv.of_moving {s : System} (hi : Inv s) {h : HostId}
    (hm : (s.host h).phase.isMoving = true) :
    ∃ data, (s.host h).phase = .moving data ∧ s.phase = .moving data := by
  have ho : s.owner = some h := by
    by_contra hne
    rw [hi.excl h hne] at hm
    cases hm
  have hp : s.phase = (s.host h).phase := by
    unfold System.phase
    rw [ho]
  rw [hp]
  cases hq : (s.host h).phase <;> rw [hq] at hm
  case moving data => exact ⟨data, rfl, rfl⟩
  all_goals cases hm

theorem other_cases {s s' : System} {p : WritePolicy} {h : HostId} {a : Sdio.Action}
    (hs : step p s (.other h a) = some s') :
    (∀ b, a ≠ .thread b) ∧ ∃ x, Sdio.step (s.host h) a = some x ∧
      s' = { s with host := Function.update s.host h x } := by
  have ha : ∀ b, a ≠ .thread b := by
    rintro b rfl
    cases hs
  have hs : (Sdio.step (s.host h) a).map
      (fun x => { s with host := Function.update s.host h x }) = some s' := by
    cases a <;> first | exact hs | exact absurd rfl (ha _)
  obtain ⟨x, hx, rfl⟩ := Option.map_eq_some_iff.mp hs
  exact ⟨ha, x, hx, rfl⟩

theorem inv_other {s : System} {h : HostId} {a : Sdio.Action} {x : Host} (hi : Inv s)
    (ha : ∀ b, a ≠ .thread b) (hx : Sdio.step (s.host h) a = some x) :
    Inv { s with host := Function.update s.host h x } := by
  have hphase : ∀ h', (Function.update s.host h x h').phase = (s.host h').phase := by
    intro h'
    rw [Function.update_apply]
    split
    case isTrue he => rw [he, phase_env (hi.data h) ha hx]
    case isFalse => rfl
  refine ⟨fun h' => ?_, fun h' ho => ?_, hi.coherent, ?_, ⟨hi.ok.reads, hi.ok.fetches⟩⟩
  · dsimp only
    rw [Function.update_apply]
    split
    · exact dataOk_step (hi.data h) hx
    · exact hi.data h'
  · rw [hphase]
    exact hi.excl h' ho
  · have hp := hi.phase
    unfold System.phase at *
    cases ho : s.owner with
    | none =>
      rw [ho] at hp
      exact hp
    | some h' =>
      rw [ho] at hp
      dsimp only
      rw [hphase]
      exact hp

theorem StoredIn.store {stored : Nat → Option Byte} {c : Cached Nat Nat Byte}
    (h : StoredIn stored c) (a : Nat) (b : Byte) :
    StoredIn (Function.update stored a (some b)) (c.store lineOf a b) := by
  intro a' b' hs
  unfold Cached.store
  dsimp only
  rw [Function.update_apply] at hs ⊢
  split at hs
  case isTrue he =>
    rw [if_pos he]
    exact Option.some.inj hs
  case isFalse hne =>
    rw [if_neg hne]
    exact h a' b' hs

/-- The DMA stores what is read: the buffer is clean, and there is nothing to write. -/
theorem inv_dmaStore {s : System} {h : HostId} {a : Nat} {b : Byte} (hi : Inv s)
    (hm : (s.host h).phase.isMoving = true) (hdir : (s.host h).hw.dctrl &&& dctrlDtdir ≠ 0) :
    Inv { s with
      cacheBuf := s.cacheBuf.store lineOf a b
      stored := Function.update s.stored a (some b) } := by
  obtain ⟨data, hd, hp⟩ := hi.of_moving hm
  have hr : data.isRead = true := ((hi.data h).programmed data hd).2.mp hdir
  have hphase := hi.phase
  rw [hp] at hphase
  refine ⟨hi.data, hi.excl, hi.coherent.store a b, ?_, ⟨hi.ok.reads, hi.ok.fetches⟩⟩
  show PhaseInv _ _ s.phase
  rw [hp]
  refine ⟨hphase.1.store a b, hphase.2.1.store a b, fun hr' => ?_⟩
  rw [hr] at hr'
  cases hr'

/-- The DMA fetches what is to be written. -/
theorem inv_dmaFetch {s : System} {h : HostId} {a : Nat} (hi : Inv s)
    (hm : (s.host h).phase.isMoving = true) (hdir : (s.host h).hw.dctrl &&& dctrlDtdir = 0)
    (ha : a < (s.host h).hw.dlen.toNat) :
    Inv { s with fetches := ⟨s.cacheBuf.mem a, s.wanted h a⟩ :: s.fetches } := by
  obtain ⟨data, hd, hp⟩ := hi.of_moving hm
  obtain ⟨hlen, hread⟩ := (hi.data h).programmed data hd
  have hr : data.isRead = false := Bool.eq_false_iff.mpr fun hr => (hread.mpr hr) hdir
  have hphase := hi.phase
  rw [hp] at hphase
  refine ⟨hi.data, hi.excl, hi.coherent, hi.phase, ⟨hi.ok.reads, fun f hf => ?_⟩⟩
  rcases List.mem_cons.mp hf with rfl | hf
  · intro b hb
    have hb : s.wanted h a = some b := hb
    have hdata := data_of_moving hd
    unfold System.wanted at hb
    rw [hdata, Option.bind_some] at hb
    split at hb
    case isTrue hw =>
      show s.cacheBuf.mem a = b
      rw [(hphase.2.2 hr).2 hw a (hlen ▸ ha), List.getD_eq_getElem?_getD, hb]
      rfl
    case isFalse => cases hb
  · exact hi.ok.fetches f hf

theorem inv_step {s s' : System} {p : WritePolicy} {a : Action} (hi : Inv s) (hg : Guard s a)
    (hs : step p s a = some s') : Inv s' := by
  cases a with
  | thread h => exact inv_thread hi hg hs
  | other h a =>
    obtain ⟨ha, x, hx, rfl⟩ := other_cases hs
    exact inv_other hi ha hx
  | fill l =>
    obtain rfl := Option.some.inj hs
    exact ⟨hi.data, hi.excl, hi.coherent.fill l, phaseInv_fill hi.phase l,
      hi.ok.reads, hi.ok.fetches⟩
  | evict l =>
    obtain rfl := Option.some.inj hs
    exact ⟨hi.data, hi.excl, hi.coherent.evict l, phaseInv_evict hi.coherent hi.phase l,
      hi.ok.reads, hi.ok.fetches⟩
  | dmaStore h a b =>
    obtain ⟨hen, hs⟩ := Option.ite_none_right_eq_some.mp hs
    obtain rfl := Option.some.inj hs
    exact inv_dmaStore hi hg hen.1
  | dmaFetch h a =>
    obtain ⟨hen, hs⟩ := Option.ite_none_right_eq_some.mp hs
    obtain rfl := Option.some.inj hs
    exact inv_dmaFetch hi hg hen.1 hen.2

theorem inv_init (hw : HostId → Hw) (mem : Nat → Byte) : Inv (init hw mem) where
  data h := dataOk_init (hw h)
  excl _ _ := rfl
  coherent _ hv := Bool.noConfusion hv
  phase := ⟨fun _ => rfl, fun _ => rfl⟩
  ok := ⟨fun _ h => (nomatch h), fun _ h => (nomatch h)⟩

/-- Each host of the system runs as a host does. -/
theorem host_of_reach {p : WritePolicy} {G : System → Action → Prop} {hw : HostId → Hw}
    {mem : Nat → Byte} {s : System} (h : Reach (step p) G (init hw mem) s) (k : HostId) :
    Reach Sdio.step Free (Sdio.init (hw k)) (s.host k) := by
  refine h.invariant (fun s => ∀ k, Reach Sdio.step Free (Sdio.init (hw k)) (s.host k))
    (fun _ => .start) (fun s a s' hr _ hs k => ?_) k
  have hupdate : ∀ (h : HostId) (a : Sdio.Action) (x : Host), Sdio.step (s.host h) a = some x →
      Reach Sdio.step Free (Sdio.init (hw k)) (Function.update s.host h x k) := by
    intro h a x hx
    rw [Function.update_apply]
    split
    case isTrue he => exact he ▸ .next (hr h) trivial hx
    case isFalse => exact hr k
  cases a with
  | thread h =>
    obtain ⟨-, x, hx, rfl⟩ := thread_cases hs
    exact hupdate h (.thread _) x hx
  | other h a =>
    obtain ⟨-, x, hx, rfl⟩ := other_cases hs
    exact hupdate h a x hx
  | fill l => exact Option.some.inj hs ▸ hr k
  | evict l => exact Option.some.inj hs ▸ hr k
  | dmaStore h a b =>
    obtain ⟨-, hs⟩ := Option.ite_none_right_eq_some.mp hs
    exact Option.some.inj hs ▸ hr k
  | dmaFetch h a =>
    obtain ⟨-, hs⟩ := Option.ite_none_right_eq_some.mp hs
    exact Option.some.inj hs ▸ hr k

/-- In every run that meets the condition, reads copy what the DMA stored, and the DMA fetches
    what is to be written, whatever the cache does and whichever host is used. -/
theorem bufferOk_of_reach {p : WritePolicy} {hw : HostId → Hw} {mem : Nat → Byte} {s : System}
    (h : Reach (step p) Guard (init hw mem) s) : BufferOk s :=
  (h.invariant Inv (inv_init hw mem) fun _ _ _ hi hg hs => inv_step hi hg hs).ok

/-- WRITE_BLOCK of one byte. -/
def writeOne : HostReq :=
  .single ⟨24, 0, respR1, .zero, 0, 0, some ⟨1, 1, dataDirWrite, 0, [0xCD]⟩⟩
    (by rintro d ⟨⟩; decide)

/-- The flags of a data command that is answered and done. -/
def complete (h : HostId) : List Action :=
  [.other h (.raise (staCmdrend ||| staDataend)), .other h .irq]

/-- A write on one host, then a read on the other, with the line cached before and after the
    DMA stores, but not at that moment. -/
def writeThenRead : List Action :=
  [.fill 0, .other .host2 (.request writeOne)] ++ List.replicate 9 (.thread .host2) ++
    [.dmaFetch .host2 0] ++ complete .host2 ++ List.replicate 4 (.thread .host2) ++
    [.other .host1 (.request readOne)] ++ List.replicate 5 (.thread .host1) ++
    [.fill 0, .thread .host1, .thread .host1, .evict 0, .dmaStore .host1 0 0xAB, .fill 0] ++
    complete .host1 ++ List.replicate 6 (.thread .host1)

theorem bufferOk_writeThenRead :
    ∃ s, exec (guarded (step .writeThrough) Guard) (init (fun _ => restHw) fun _ => 0)
        writeThenRead = some s ∧
      s.reads.map (fun r => (r.err, r.buf)) = [(rtEok, [0xAB])] ∧
      s.fetches = [⟨0xCD, some 0xCD⟩] ∧ BufferOk s := by
  obtain ⟨s, hs⟩ : ∃ s, exec (guarded (step .writeThrough) Guard)
      (init (fun _ => restHw) fun _ => 0) writeThenRead = some s := ⟨_, rfl⟩
  have hv : s.reads.map (fun r => (r.err, r.buf)) = [(rtEok, [0xAB])] ∧
      s.fetches = [⟨0xCD, some 0xCD⟩] := by
    cases hs
    decide
  exact ⟨s, hs, hv.1, hv.2, bufferOk_of_reach (reach_of_exec .start hs)⟩

/-- A read whose line is filled between the invalidation and the DMA store. -/
def prefetch : List Action :=
  .other .host1 (.request readOne) :: List.replicate 4 (.thread .host1) ++
    [.fill 0, .thread .host1, .thread .host1, .thread .host1, .dmaStore .host1 0 0xAB] ++
    complete .host1 ++ List.replicate 6 (.thread .host1)

/-- The old byte is copied, and the read ends with RT_EOK. -/
theorem bufferOk_fails_prefetch :
    ¬ ∀ p hw mem s, Reach (step p) Free (init hw mem) s → BufferOk s := by
  intro hall
  obtain ⟨s, hs⟩ : ∃ s, exec (guarded (step .writeThrough) Free)
      (init (fun _ => restHw) fun _ => 0) prefetch = some s := ⟨_, rfl⟩
  have hv : ∃ r ∈ s.reads, r.err = rtEok ∧ r.size = 1 ∧ r.stored 0 = some 0xAB ∧
      r.buf = [0] := by
    cases hs
    decide
  obtain ⟨r, hr, he, hsize, hstored, hbuf⟩ := hv
  obtain ⟨b, hb, hcopied⟩ := (hall _ _ _ s (reach_of_exec .start hs)).reads r hr he 0
    (hsize ▸ Nat.one_pos)
  rw [hstored] at hb
  rw [hbuf] at hcopied
  cases hb
  cases hcopied

end Live2dStm32.Sdio.CacheBuf
