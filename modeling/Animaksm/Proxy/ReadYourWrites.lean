import Animaksm.Proxy.Session

/-!
# Read your writes

The engine of a session reads as that memory in every state of a run in which no request
releases an entry whose fingerprint is tracked at another slot, and no count
wraps. The first can happen: an eviction forgets a fingerprint whose translation
lives on, and a later write of the same page tracks it again elsewhere.
-/

namespace Animaksm.Proxy

namespace ProxyEngine

/-- What a write to this offset replaces is not tracked at another slot when the write
releases it: after the page it stores, if it stores one, was offered to the table. -/
def ReleasesInPlace (fingerprintPage : Page → Fingerprint) (e : ProxyEngine) (v : UInt64)
    (data : List UInt8) : Prop :=
  let page := normalizePage data
  let fp := fingerprintPage page
  ∀ old, e.translation.lookup v = some old →
    if e.passthrough = true ∨ e.VerifiedDuplicate fp page then ¬ e.dedupTable.TracksElsewhere old
    else ∀ slot, e.slotAllocator.allocate.1 = some slot →
      ¬ (e.dedupTable.insert fp page.bytes slot).2.TracksElsewhere old

instance (fingerprintPage : Page → Fingerprint) (e : ProxyEngine) (v : UInt64)
    (data : List UInt8) : Decidable (e.ReleasesInPlace fingerprintPage v data) := by
  unfold ReleasesInPlace
  infer_instance

/-- A written page is offered to the same table as in the state before the write. -/
private theorem not_tracksElsewhere_placed {fingerprintPage : Page → Fingerprint}
    {e placed : ProxyEngine} {v : UInt64} {io : WriteIo} {data : List UInt8}
    {entry old : TranslationEntry} (h : e.ReleasesInPlace fingerprintPage v data)
    (hp : e.place fingerprintPage io data = (.ok entry, placed))
    (hold : e.translation.lookup v = some old) : ¬ placed.dedupTable.TracksElsewhere old := by
  have hrel := h old hold
  obtain ⟨e₁, hc, ⟨hpass, hq⟩ | ⟨hpass, ⟨_, _, -, -, hq⟩ | ⟨_, -, hdup, -, hq⟩ | ⟨hdup, hq⟩⟩⟩ :=
    e.place_cases fingerprintPage io data <;> rw [hp] at hq
  · obtain ⟨slot, _, -, -, -, rfl⟩ := placeDirect_eq_ok hq.symm
    rw [if_pos (Or.inl hpass)] at hrel
    rwa [DedupTable.tracksElsewhere_congr hc.map_eq]
  · cases hq
  · cases hq
    rw [if_pos (Or.inr hdup), ← DedupTable.tracksElsewhere_congr hc.map_eq] at hrel
    exact fun ht => hrel (DedupTable.tracksElsewhere_addReference ht)
  · obtain ⟨slot, _, ha, -, -, rfl⟩ := placeUnique_eq_ok hq.symm
    rw [if_neg (by simp [hpass, hdup])] at hrel
    rw [hc.slotAllocator_eq] at ha
    dsimp only
    rw [DedupTable.tracksElsewhere_congr (hc.map_insert_eq _ _ slot)]
    exact hrel slot ha

end ProxyEngine

/-- A request releases nothing at a wrong slot, and no count wraps in it. -/
def Op.KeepsOwners (fingerprintPage : Page → Fingerprint) (e : ProxyEngine) (op : Op) : Prop :=
  op.CountFits fingerprintPage e ∧
    match op with
    | .write v _ data => e.ReleasesInPlace fingerprintPage v data
    | .discard v => ∀ old, e.translation.lookup v = some old → ¬ e.dedupTable.TracksElsewhere old
    | .read _ _ | .setPassthrough _ => True

instance (fingerprintPage : Page → Fingerprint) (e : ProxyEngine) :
    ∀ op : Op, Decidable (op.KeepsOwners fingerprintPage e)
  | .write v io data => inferInstanceAs (Decidable
      (Op.CountFits fingerprintPage e (.write v io data) ∧ e.ReleasesInPlace fingerprintPage v data))
  | .discard v => inferInstanceAs (Decidable (Op.CountFits fingerprintPage e (.discard v) ∧
      ∀ old, e.translation.lookup v = some old → ¬ e.dedupTable.TracksElsewhere old))
  | .read v io =>
    inferInstanceAs (Decidable (Op.CountFits fingerprintPage e (.read v io) ∧ True))
  | .setPassthrough on =>
    inferInstanceAs (Decidable (Op.CountFits fingerprintPage e (.setPassthrough on) ∧ True))

/-- One request that keeps owners keeps the engine behind its memory. -/
theorem Session.Sound.step {fingerprintPage : Page → Fingerprint} {s : Session} {op : Op}
    (h : s.Sound False) (hop : op.KeepsOwners fingerprintPage s.engine) :
    (s.step fingerprintPage op).Sound False := by
  cases op with
  | write v io data =>
    exact Backs.handleWrite h v hop.1 False.elim fun _ entry placed hp old hold =>
      ProxyEngine.not_tracksElsewhere_placed hop.2 hp hold
  | read v io => exact Backs.recount h (ProxyEngine.recounts_handleRead ..)
  | discard v => exact Backs.handleDiscard h v fun _ => hop.2
  | setPassthrough on => exact Backs.setPassthrough h on

/-- Read-your-writes and non-interference: at the end of every run whose requests release
nothing at a wrong slot and wrap no count, every offset reads as its last successful write
or discard left it, and one more such request changes what no other offset reads. -/
theorem Session.readYourWrites (fingerprintPage : Page → Fingerprint) (store : PageStore)
    (maxEntries bloomCapacity : Nat) (ops : List Op)
    (h : Run.Along (Session.step fingerprintPage)
      (fun s op => op.KeepsOwners fingerprintPage s.engine)
      (.start store maxEntries bloomCapacity) ops) :
    let s := Run.run (Session.step fingerprintPage) (.start store maxEntries bloomCapacity) ops
    s.ReadsBack ∧ ∀ op w, op.KeepsOwners fingerprintPage s.engine → op.offset ≠ some w →
      ((s.step fingerprintPage op).engine.handleRead .done w).1 =
        (s.engine.handleRead .done w).1 := by
  have hsound := h.invariant (fun _ _ hs hop => Session.Sound.step hs hop)
    (Session.sound_start store maxEntries bloomCapacity)
  refine ⟨hsound.readsBack, fun op w hop hw => ?_⟩
  rw [(hsound.step hop).readsBack w, hsound.readsBack w, Session.memory_step_of_ne hw]

theorem Session.readYourWrites_apply :
    let s := Run.run (Session.step firstBytes) (.start (.blank 4 (by decide)) 1 1)
      [.setPassthrough false, .write 0 .done [1], .write 1 .done [2], .write 0 .done [3], .discard 1]
    s.ReadsBack ∧ ∀ op w, op.KeepsOwners firstBytes s.engine → op.offset ≠ some w →
      ((s.step firstBytes op).engine.handleRead .done w).1 = (s.engine.handleRead .done w).1 :=
  Session.readYourWrites firstBytes _ 1 1 _ (by decide +kernel)

/-- The page at offset 0 is written again after its fingerprint was evicted. The rewrite
releases the new slot, the next write takes it, and offset 0 reads as that page. -/
theorem Session.not_readsBack_of_retracked : ¬ (Run.run (Session.step firstBytes)
    (.start (.blank 4 (by decide)) 1 1) [.setPassthrough false, .write 0 .done [1], .write 1 .done [2],
      .write 0 .done [1], .write 2 .done [3]]).ReadsBack := by
  intro h
  have hread := congrArg (fun r => r.toOption.map fun page => page.bytes.headD 0) (h 0)
  revert hread
  decide +kernel

end Animaksm.Proxy
