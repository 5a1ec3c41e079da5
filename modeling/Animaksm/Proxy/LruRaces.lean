import Animaksm.Proxy.TableThreads

/-!
# Records and map under concurrency

A call changes the map first and the recency records later. When for each
fingerprint the changes of the records run in the order of the map operations
before them, and no thread enters a fingerprint that is tracked, the records agree
with the map whenever no call is in progress. Two insertions of one fingerprint, and
an insertion that crosses a removal, break this.
-/

namespace Animaksm.Proxy

/-- The changes that are due turn this number of records into that of the map: they enter and drop
the fingerprint by turns. -/
def Settles : Nat → List Bool → Bool → Prop
  | count, [], tracked => count = if tracked then 1 else 0
  | count, true :: rest, tracked => count = 0 ∧ Settles 1 rest tracked
  | count, false :: rest, tracked => count = 1 ∧ Settles 0 rest tracked

/-- A change of the map makes one more change of the records due. -/
theorem Settles.concat {count : Nat} {due : List Bool} {enters : Bool} (h : Settles count due !enters) :
    Settles count (due ++ [enters]) enters := by
  induction due generalizing count with
  | nil =>
    cases enters with
    | true => exact ⟨h, rfl⟩
    | false => exact ⟨h, rfl⟩
  | cons first rest ih =>
    cases first with
    | true => exact ⟨h.1, ih h.2⟩
    | false => exact ⟨h.1, ih h.2⟩

/-- The first change that is due. -/
theorem settles_cons {count : Nat} {due : List Bool} {enters tracked : Bool} :
    Settles count (enters :: due) tracked ↔
      (count = if enters then 0 else 1) ∧ Settles (if enters then 1 else 0) due tracked := by
  cases enters with
  | true => exact Iff.rfl
  | false => exact Iff.rfl

namespace TableThreads

variable {ι : Type} [DecidableEq ι] {s : TableThreads ι}

omit [DecidableEq ι] in
/-- The changes due for a fingerprint. -/
def dueFor (due : List (ι × Fingerprint × Bool)) (fp : Fingerprint) : List (ι × Fingerprint × Bool) :=
  due.filter fun change => change.2.1 = fp

omit [DecidableEq ι] in
/-- The thread has the first of the changes due for the fingerprint. -/
def NextDue (s : TableThreads ι) (i : ι) (fp : Fingerprint) : Prop :=
  (dueFor s.due fp).head?.map Prod.fst = some i

instance (s : TableThreads ι) (i : ι) (fp : Fingerprint) : Decidable (s.NextDue i fp) :=
  inferInstanceAs (Decidable (_ = _))

/-- A fingerprint is entered only while it is not tracked, and the records change in the order of
the map operations. -/
def InOrder (s : TableThreads ι) : TableStep ι → Prop
  | .begin _ _ => True
  | .advance i =>
    match s.stage i with
    | .mapInsert page => s.table.map.lookup page.fp = none
    | .forgetEvicted fp _ | .push fp _ | .forget fp => s.NextDue i fp
    | _ => True

omit [DecidableEq ι] in
/-- The changes due lead from the records to the map, and each is due from the thread that made it. -/
structure Settled (s : TableThreads ι) : Prop where
  settles : ∀ fp, Settles (DedupTable.records s.table.lru fp) ((dueFor s.due fp).map fun e => e.2.2)
    (s.table.map.lookup fp).isSome
  owed : ∀ change ∈ s.due, (s.stage change.1).owes = some change.2
  nodup : (s.due.map Prod.fst).Nodup

omit [DecidableEq ι] in
/-- With no call in progress nothing is due. -/
theorem Settled.agreesWhenQuiet (h : s.Settled) (hquiet : s.Quiet) : s.table.LruAgrees := by
  intro fp
  have hdue : s.due = [] := by
    refine List.eq_nil_iff_forall_not_mem.mpr fun change hchange => ?_
    have howed := h.owed change hchange
    rw [hquiet change.1] at howed
    cases howed
  have hsettles := h.settles fp
  rw [hdue] at hsettles
  exact hsettles

variable {i : ι} {table : DedupTable} {before after : TableStage} {decided : List TableAnswer}

/-- A section that changes neither the tracked fingerprints nor the number of records. -/
theorem Settled.keep (h : s.Settled) (hbefore : s.stage i = before) (howes : after.owes = before.owes)
    (hrecords : ∀ fp, DedupTable.records table.lru fp = DedupTable.records s.table.lru fp)
    (htracked : ∀ fp, (table.map.lookup fp).isSome = (s.table.map.lookup fp).isSome) :
    Settled ⟨table, Function.update s.stage i after, dueAfter i s.due before after, decided⟩ := by
  subst hbefore
  have hdue : dueAfter i s.due (s.stage i) after = s.due := by
    rw [dueAfter, howes]
    cases (s.stage i).owes with
    | none => rfl
    | some change => rfl
  rw [hdue]
  refine ⟨fun fp => ?_, fun change hchange => ?_, h.nodup⟩
  · dsimp only
    rw [hrecords, htracked]
    exact h.settles fp
  · have howed := h.owed change hchange
    dsimp only
    by_cases hi : change.1 = i
    · rw [hi, Function.update_self, howes, ← hi]
      exact howed
    · rw [Function.update_of_ne hi]
      exact howed

/-- A section that enters a fingerprint into the map or drops it. -/
theorem Settled.change (h : s.Settled) {fp : Fingerprint} {enters : Bool} (hbefore : s.stage i = before)
    (howes : before.owes = none) (howes' : after.owes = some (fp, enters))
    (hrecords : table.lru = s.table.lru)
    (hfp : (s.table.map.lookup fp).isSome = !enters) (htracked : ∀ other,
      (table.map.lookup other).isSome = if other = fp then enters else (s.table.map.lookup other).isSome) :
    Settled ⟨table, Function.update s.stage i after, dueAfter i s.due before after, decided⟩ := by
  subst hbefore
  have hdue : dueAfter i s.due (s.stage i) after = s.due ++ [(i, fp, enters)] := by
    rw [dueAfter, howes, howes']
  have hnot : ∀ change ∈ s.due, change.1 ≠ i := by
    rintro change hchange rfl
    cases howes.symm.trans (h.owed change hchange)
  rw [hdue]
  refine ⟨fun other => ?_, fun change hchange => ?_, ?_⟩
  · have hsettles := h.settles other
    dsimp only
    rw [dueFor, List.filter_append, List.map_append, hrecords, htracked]
    by_cases hother : other = fp
    · rw [if_pos hother, List.filter_cons_of_pos (by simpa using hother.symm)]
      refine Settles.concat ?_
      rw [← hfp, ← hother]
      exact hsettles
    · rw [if_neg hother, List.filter_cons_of_neg (by simpa using Ne.symm hother)]
      rw [List.filter_nil, List.map_nil, List.append_nil]
      exact hsettles
  · dsimp only
    rcases List.mem_append.mp hchange with hchange | hchange
    · rw [Function.update_of_ne (hnot change hchange)]
      exact h.owed change hchange
    · rw [List.mem_singleton.mp hchange, Function.update_self]
      exact howes'
  · dsimp only
    rw [List.map_append, List.nodup_append]
    refine ⟨h.nodup, List.nodup_singleton _, fun j hj k hk => ?_⟩
    obtain ⟨change, hchange, rfl⟩ := List.mem_map.mp hj
    rw [List.mem_singleton.mp hk]
    exact hnot change hchange

omit [DecidableEq ι] in
/-- The first change due for a fingerprint is the one that the thread whose turn it is owes. -/
theorem Settled.dueFor_eq (h : s.Settled) {fp : Fingerprint} {enters : Bool}
    (howes : (s.stage i).owes = some (fp, enters)) (hnext : s.NextDue i fp) :
    ∃ rest, dueFor s.due fp = (i, fp, enters) :: rest := by
  unfold NextDue at hnext
  cases hfor : dueFor s.due fp with
  | nil =>
    rw [hfor] at hnext
    cases hnext
  | cons first rest =>
    rw [hfor] at hnext
    have hmem : first ∈ s.due := List.mem_of_mem_filter (hfor ▸ List.mem_cons_self)
    have hi : first.1 = i := Option.some.inj hnext
    have howed := h.owed first hmem
    rw [hi, howes] at howed
    exact ⟨rest, by rw [← hi, Option.some.inj howed]⟩

/-- Apart from the change that a thread owes nothing is due from it. -/
theorem Settled.ne_of_mem_erase (h : s.Settled) {fp : Fingerprint} {enters : Bool}
    (howes : (s.stage i).owes = some (fp, enters)) {change : ι × Fingerprint × Bool}
    (hchange : change ∈ s.due.erase (i, fp, enters)) : change.1 ≠ i := by
  intro hi
  have howed := h.owed change (List.mem_of_mem_erase hchange)
  rw [hi, howes] at howed
  have heq : change = (i, fp, enters) := Prod.ext hi (Option.some.inj howed).symm
  rw [heq] at hchange
  exact List.Nodup.not_mem_erase (List.Nodup.of_map _ h.nodup) hchange

/-- A critical section of the records that runs in its turn. -/
theorem Settled.settle (h : s.Settled) {fp : Fingerprint} {enters : Bool} (hbefore : s.stage i = before)
    (howes : before.owes = some (fp, enters)) (howes' : after.owes = none)
    (hnext : s.NextDue i fp) (hmap : table.map = s.table.map)
    (hrecords : ∀ other, DedupTable.records table.lru other =
      if other = fp then if enters then DedupTable.records s.table.lru fp + 1 else 0
      else DedupTable.records s.table.lru other) :
    Settled ⟨table, Function.update s.stage i after, dueAfter i s.due before after, decided⟩ := by
  subst hbefore
  have hdue : dueAfter i s.due (s.stage i) after = s.due.erase (i, fp, enters) := by
    rw [dueAfter, howes, howes']
  obtain ⟨rest, hfirst⟩ := h.dueFor_eq howes hnext
  have herase : ∀ other, dueFor (s.due.erase (i, fp, enters)) other =
      (dueFor s.due other).erase (i, fp, enters) := fun other => List.erase_filter.symm
  rw [hdue]
  refine ⟨fun other => ?_, fun change hchange => ?_, h.nodup.sublist (List.erase_sublist.map _)⟩
  · have hsettles := h.settles other
    dsimp only
    rw [herase, hmap, hrecords]
    by_cases hother : other = fp
    · rw [if_pos hother]
      rw [hother, hfirst, List.map_cons, settles_cons] at hsettles
      rw [hother, hfirst, List.erase_cons_head]
      cases enters with
      | true =>
        rw [hsettles.1]
        exact hsettles.2
      | false => exact hsettles.2
    · rw [if_neg hother, List.erase_of_not_mem]
      · exact hsettles
      · intro hmem
        have := (List.mem_filter.mp hmem).2
        exact hother (of_decide_eq_true this).symm
  · dsimp only
    rw [Function.update_of_ne (h.ne_of_mem_erase howes hchange)]
    exact h.owed change (List.mem_of_mem_erase hchange)

/-- Taking up a call. -/
theorem Settled.begin (h : s.Settled) (i : ι) (call : TableCall) : (s.step (.begin i call)).Settled := by
  rw [step]
  split
  next hidle =>
    refine ⟨h.settles, fun change hchange => ?_, h.nodup⟩
    have howed := h.owed change hchange
    by_cases hi : change.1 = i
    · rw [hi, hidle] at howed
      cases howed
    · dsimp only
      rw [Function.update_of_ne hi]
      exact howed
  next => exact h

/-- Entering a fingerprint, or changing its entry. -/
theorem isSome_lookup_insert (map : Finmap fun _ : Fingerprint => DedupEntry) (fp other : Fingerprint)
    (entry : DedupEntry) : ((map.insert fp entry).lookup other).isSome =
      if other = fp then true else (map.lookup other).isSome := by
  rw [Finmap.lookup_insert_eq]
  split
  · rfl
  · rfl

theorem isSome_lookup_erase (map : Finmap fun _ : Fingerprint => DedupEntry) (fp other : Fingerprint) :
    ((map.erase fp).lookup other).isSome =
      if other = fp then false else (map.lookup other).isSome := by
  rw [Finmap.lookup_erase_eq]
  split
  · rfl
  · rfl

/-- A changed entry stays tracked. -/
theorem isSome_lookup_update {map : Finmap fun _ : Fingerprint => DedupEntry} {fp : Fingerprint}
    {entry : DedupEntry} (hfp : map.lookup fp = some entry) (entry' : DedupEntry) (other : Fingerprint) :
    ((map.insert fp entry').lookup other).isSome = (map.lookup other).isSome := by
  rw [isSome_lookup_insert]
  split
  next heq =>
    rw [heq, hfp]
    rfl
  next => rfl

/-- A section in order keeps the changes due settled. -/
theorem Settled.advance (h : s.Settled) {i : ι} (horder : s.InOrder (.advance i)) :
    (s.step (.advance i)).Settled := by
  rw [InOrder] at horder
  rw [step]
  have hsame : ∀ {table : DedupTable} {before after : TableStage} {decided : List TableAnswer},
      s.stage i = before → after.owes = before.owes → table.lru = s.table.lru →
      table.map = s.table.map →
      Settled ⟨table, Function.update s.stage i after, dueAfter i s.due before after, decided⟩ :=
    fun hbefore howes hlru hmap => h.keep hbefore howes (fun fp => by rw [hlru]) (fun fp => by rw [hmap])
  cases hstage : s.stage i with
  | idle => exact hsame hstage rfl rfl rfl
  | mightContain fp data =>
    rw [TableStage.next]
    split
    · exact hsame hstage rfl rfl rfl
    · exact hsame hstage rfl rfl rfl
  | get fp data =>
    rw [TableStage.next]
    split
    · split
      · exact hsame hstage rfl rfl rfl
      · exact hsame hstage rfl rfl rfl
    · exact hsame hstage rfl rfl rfl
  | containsKey page =>
    rw [TableStage.next]
    split
    · exact hsame hstage rfl rfl rfl
    · exact hsame hstage rfl rfl rfl
  | checkCapacity page =>
    rw [TableStage.next]
    split
    · exact hsame hstage rfl rfl rfl
    · exact hsame hstage rfl rfl rfl
  | listCandidates page =>
    rw [TableStage.next]
    split
    · exact hsame hstage rfl rfl rfl
    · exact h.keep hstage rfl (DedupTable.records_perm (List.perm_insertionSort _ _)) fun _ => rfl
  | evictNext candidates page =>
    cases candidates with
    | nil => exact hsame hstage rfl rfl rfl
    | cons fp rest =>
      rw [TableStage.next]
      cases hfp : s.table.map.lookup fp with
      | none => exact hsame hstage rfl rfl rfl
      | some entry =>
        dsimp only
        split
        · exact h.change hstage rfl rfl rfl (by rw [hfp]; rfl) (isSome_lookup_erase s.table.map fp)
        · exact hsame hstage rfl rfl rfl
  | forgetEvicted fp page =>
    rw [hstage] at horder
    exact h.settle hstage rfl rfl horder rfl (DedupTable.records_forget s.table.lru fp)
  | mapInsert page =>
    rw [hstage] at horder
    exact h.change hstage rfl rfl rfl (by rw [horder]; rfl) fun other =>
      isSome_lookup_insert s.table.map page.fp other _
  | takeTick fp => exact hsame hstage rfl rfl rfl
  | push fp tick =>
    rw [hstage] at horder
    refine h.settle hstage rfl rfl horder rfl fun other => ?_
    refine (DedupTable.records_push s.table.lru fp other tick).trans ?_
    by_cases hother : other = fp
    · rw [if_pos hother, if_pos hother.symm, hother]
      rfl
    · rw [if_neg hother, if_neg (Ne.symm hother), Nat.add_zero]
  | increment fp =>
    rw [TableStage.next]
    cases hfp : s.table.map.lookup fp with
    | none => exact hsame hstage rfl rfl rfl
    | some entry => exact h.keep hstage rfl (fun _ => rfl) (isSome_lookup_update hfp _)
  | takeRefreshTick fp => exact hsame hstage rfl rfl rfl
  | refresh fp tick =>
    exact h.keep hstage rfl (fun other => DedupTable.records_touch fp other tick s.table.lru)
      fun _ => rfl
  | decrement fp =>
    rw [TableStage.next]
    cases hfp : s.table.map.lookup fp with
    | none => exact hsame hstage rfl rfl rfl
    | some entry =>
      dsimp only
      split
      · exact h.change hstage rfl rfl rfl (by rw [hfp]; rfl) (isSome_lookup_erase s.table.map fp)
      · exact h.keep hstage rfl (fun _ => rfl) (isSome_lookup_update hfp _)
  | forget fp =>
    rw [hstage] at horder
    exact h.settle hstage rfl rfl horder rfl (DedupTable.records_forget s.table.lru fp)

/-- A step in order keeps the changes due settled. -/
theorem Settled.step (h : s.Settled) {step : TableStep ι} (horder : s.InOrder step) :
    (s.step step).Settled := by
  cases step with
  | begin i call => exact h.begin i call
  | advance i => exact h.advance horder

omit [DecidableEq ι] in
theorem settled_start (maxEntries bloomCapacity : Nat) :
    (start ι (.new maxEntries bloomCapacity)).Settled where
  settles fp := by
    rw [start, DedupTable.new]
    dsimp only
    rw [Finmap.lookup_empty]
    rfl
  owed change hchange := absurd hchange List.not_mem_nil
  nodup := List.nodup_nil

/-- In a run in order, the records hold each tracked fingerprint once and no other whenever no call
is in progress. -/
theorem lruAgrees (maxEntries bloomCapacity : Nat) {steps : List (TableStep ι)}
    (horder : Run.Along step InOrder (start ι (.new maxEntries bloomCapacity)) steps)
    (hquiet : (Run.run step (start ι (.new maxEntries bloomCapacity)) steps).Quiet) :
    (Run.run step (start ι (.new maxEntries bloomCapacity)) steps).table.LruAgrees :=
  Settled.agreesWhenQuiet (horder.invariant (fun _ _ h horder => h.step horder)
    (settled_start maxEntries bloomCapacity)) hquiet

/-- A run of two threads on a table for two fingerprints. -/
def runTwo (steps : List (TableStep Bool)) : TableThreads Bool :=
  Run.run step (start Bool (.new 2 1)) steps

/-- The fingerprint that the two threads call the table with. -/
def raced : Fingerprint := fun _ => 7

/-- A fingerprint that only one of them calls it with. -/
def unraced : Fingerprint := fun _ => 8

/-- Both threads at once insert a fingerprint of their own, and then one removes its reference while the
other adds one. -/
def sideBySide : List (TableStep Bool) :=
  [TableStep.begin false (.insert raced [1] 0), TableStep.begin true (.insert unraced [2] 1)] ++
    (List.replicate 5 [TableStep.advance false, TableStep.advance true]).flatten ++
    [TableStep.begin false (.removeReference raced), TableStep.begin true (.addReference unraced)] ++
    (List.replicate 3 [TableStep.advance false, TableStep.advance true]).flatten

theorem lruAgrees_apply : (runTwo sideBySide).table.LruAgrees ∧
    ((runTwo sideBySide).table.map.lookup unraced).map DedupEntry.refCount = some 2 ∧
    (runTwo sideBySide).table.map.lookup raced = none := by
  have horder : Run.Along step InOrder (start Bool (.new 2 1)) sideBySide :=
    ⟨trivial, trivial, trivial, trivial, trivial, trivial, rfl, rfl, trivial, trivial, rfl, rfl,
      trivial, trivial, trivial, trivial, rfl, trivial, trivial, trivial, trivial⟩
  exact ⟨lruAgrees 2 1 horder (by decide +kernel), by decide +kernel, by decide +kernel⟩

/-- Both threads find the fingerprint free and insert it. -/
def twoInsertions : List (TableStep Bool) :=
  [TableStep.begin false (.insert raced [1] 0), TableStep.begin true (.insert raced [1] 1)] ++
    (List.replicate 5 [TableStep.advance false, TableStep.advance true]).flatten

/-- An insertion comes between the two sections of a removal. -/
def insertionInRemoval : List (TableStep Bool) :=
  TableStep.begin false (.insert raced [1] 0) :: List.replicate 5 (TableStep.advance false) ++
    [TableStep.begin false (.removeReference raced), TableStep.advance false,
      TableStep.begin true (.insert raced [1] 1)] ++
    List.replicate 5 (TableStep.advance true) ++ [TableStep.advance false]

/-- A removal comes between the sections of an insertion. -/
def removalInInsertion : List (TableStep Bool) :=
  TableStep.begin false (.insert raced [1] 0) :: List.replicate 3 (TableStep.advance false) ++
    TableStep.begin true (.removeReference raced) :: List.replicate 2 (TableStep.advance true) ++
    List.replicate 2 (TableStep.advance false)

/-- The races leave two records of a fingerprint, none of a tracked one, and one of an untracked one. -/
theorem not_lruAgrees :
    ((runTwo twoInsertions).Quiet ∧ ¬ (runTwo twoInsertions).table.LruAgrees) ∧
    ((runTwo insertionInRemoval).Quiet ∧ ¬ (runTwo insertionInRemoval).table.LruAgrees) ∧
    (runTwo removalInInsertion).Quiet ∧ ¬ (runTwo removalInInsertion).table.LruAgrees := by
  refine ⟨⟨by decide +kernel, fun h => ?_⟩, ⟨by decide +kernel, fun h => ?_⟩, by decide +kernel, fun h => ?_⟩
  · exact absurd (h raced) (by decide +kernel)
  · exact absurd (h raced) (by decide +kernel)
  · exact absurd (h raced) (by decide +kernel)

end TableThreads

end Animaksm.Proxy
