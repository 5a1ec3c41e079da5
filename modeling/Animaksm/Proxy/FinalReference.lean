import Animaksm.Lib.Log
import Animaksm.Proxy.TableThreads

/-!
# The final reference

References to a fingerprint are counted and dropped by any number of threads, while
nothing is inserted. The reference count is what was inserted and counted less what
was dropped, so the fingerprint goes with the removal that makes up for all of them,
once, and from then on it is not tracked.
-/

namespace Animaksm.Proxy

namespace TableAnswer

/-- A counted reference to the fingerprint. -/
def counts (fp : Fingerprint) : TableAnswer → Bool
  | .addReference other true => other = fp
  | _ => false

/-- An answer to a removal of a reference to the fingerprint. -/
def drops (fp : Fingerprint) : TableAnswer → Bool
  | .removeReference other _ => other = fp
  | _ => false

/-- A removal that takes the fingerprint with it. -/
def releases (fp : Fingerprint) : TableAnswer → Bool
  | .removeReference other (.removed _) => other = fp
  | _ => false

/-- What a call on the fingerprint should be answered after so many counted and dropped references,
when it was inserted once with this slot. -/
def AsCounted (fp : Fingerprint) (slot counted dropped : Nat) : TableAnswer → Prop
  | .addReference other found => other = fp → found = decide (dropped < 1 + counted)
  | .removeReference other removal => other = fp → removal =
      if dropped + 1 < 1 + counted then .stillReferenced
      else if dropped + 1 = 1 + counted then .removed slot
      else .notTracked
  | _ => True

@[simp] theorem counts_self (fp : Fingerprint) : (addReference fp true).counts fp = true :=
  decide_eq_true rfl

@[simp] theorem drops_self (fp : Fingerprint) (removal : ReferenceRemoval) :
    (removeReference fp removal).drops fp = true :=
  decide_eq_true rfl

@[simp] theorem releases_self (fp : Fingerprint) (offset : Nat) :
    (removeReference fp (.removed offset)).releases fp = true :=
  decide_eq_true rfl

end TableAnswer

/-- A call that inserts nothing. -/
def TableCall.InsertsNothing : TableCall → Prop
  | .insert _ _ _ => False
  | _ => True

instance : DecidablePred TableCall.InsertsNothing
  | .insert _ _ _ => isFalse id
  | .lookup _ _ => isTrue trivial
  | .addReference _ => isTrue trivial
  | .removeReference _ => isTrue trivial

namespace TableStage

/-- A stage of a call that inserts nothing. -/
def InsertsNothing : TableStage → Prop
  | .idle | .mightContain _ _ | .get _ _ | .increment _ | .takeRefreshTick _ | .refresh _ _
  | .decrement _ | .forget _ => True
  | _ => False

theorem insertsNothing_begin {call : TableCall} (h : call.InsertsNothing) :
    (begin call).InsertsNothing := by
  cases call with
  | insert fp data slot => exact h.elim
  | _ => trivial

theorem insertsNothing_next {stage : TableStage} (h : stage.InsertsNothing) (t : DedupTable) :
    (stage.next t).stage.InsertsNothing := by
  cases stage with
  | idle | takeRefreshTick fp | refresh fp tick | forget fp => trivial
  | mightContain fp data =>
    rw [next]
    split
    · trivial
    · trivial
  | get fp data =>
    rw [next]
    split
    · split
      · trivial
      · trivial
    · trivial
  | increment fp =>
    rw [next]
    split
    · trivial
    · trivial
  | decrement fp =>
    rw [next]
    split
    · split
      · trivial
      · trivial
    · trivial
  | _ => exact h.elim

end TableStage

/-- The entry of the fingerprint is what is left of the references, or they are all gone. -/
def Counted (fp : Fingerprint) (slot : Nat) (table : DedupTable) (counted dropped : Nat) : Prop :=
  (table.map.lookup fp = none ∧ 1 + counted ≤ dropped) ∨
    ∃ entry, table.map.lookup fp = some entry ∧ entry.backendOffset = slot ∧
      1 ≤ entry.refCount.toNat ∧ entry.refCount.toNat + dropped = 1 + counted

/-- The number of references that were counted and dropped so far. -/
def countedIn (fp : Fingerprint) (log : List TableAnswer) : Nat := log.countP (TableAnswer.counts fp)

def droppedIn (fp : Fingerprint) (log : List TableAnswer) : Nat := log.countP (TableAnswer.drops fp)

/-- The answers up to here are those that the count asks for, the entry is what is left, and the
fingerprint was released once if it is gone. -/
structure Tallied (fp : Fingerprint) (slot : Nat) (table : DedupTable) (log : List TableAnswer) : Prop where
  counted : Counted fp slot table (countedIn fp log) (droppedIn fp log)
  answers : Log.Throughout (fun before answer =>
    answer.AsCounted fp slot (countedIn fp before) (droppedIn fp before)) log
  releases : log.countP (TableAnswer.releases fp) = if (table.map.lookup fp).isSome then 0 else 1

variable {fp : Fingerprint} {slot : Nat} {table table' : DedupTable} {log : List TableAnswer}

/-- A section that neither touches the entry nor answers. -/
theorem Tallied.silent (h : Tallied fp slot table log) (hmap : table'.map.lookup fp = table.map.lookup fp) :
    Tallied fp slot table' log where
  counted := by
    unfold Counted
    rw [hmap]
    exact h.counted
  answers := h.answers
  releases := by
    rw [hmap]
    exact h.releases

/-- A section that answers as the count asks for. -/
theorem Tallied.concat (h : Tallied fp slot table log) {answer : TableAnswer}
    (hanswer : answer.AsCounted fp slot (countedIn fp log) (droppedIn fp log))
    (hcounted : Counted fp slot table' (countedIn fp log + if answer.counts fp then 1 else 0)
      (droppedIn fp log + if answer.drops fp then 1 else 0))
    (hreleases : (if (table.map.lookup fp).isSome then 0 else 1) + (if answer.releases fp then 1 else 0) =
      if (table'.map.lookup fp).isSome then 0 else 1) : Tallied fp slot table' (log ++ [answer]) where
  counted := by
    rw [countedIn, droppedIn, List.countP_append, List.countP_append, List.countP_singleton,
      List.countP_singleton]
    exact hcounted
  answers := Log.throughout_concat.mpr ⟨h.answers, hanswer⟩
  releases := by
    rw [List.countP_append, List.countP_singleton, h.releases, hreleases]

/-- A section that answers something else. -/
theorem Tallied.other (h : Tallied fp slot table log) {answer : TableAnswer}
    (hmap : table'.map.lookup fp = table.map.lookup fp) (hcounts : answer.counts fp = false)
    (hdrops : answer.drops fp = false) (hreleases : answer.releases fp = false)
    (hanswer : ∀ counted dropped, answer.AsCounted fp slot counted dropped) :
    Tallied fp slot table' (log ++ [answer]) := by
  refine h.concat (hanswer _ _) ?_ ?_
  · rw [hcounts, hdrops]
    exact (h.silent hmap).counted
  · rw [hreleases, hmap]
    rfl

/-- A reference to the fingerprint is counted while it is tracked. -/
theorem Tallied.increment (h : Tallied fp slot table log)
    (hfew : 1 + countedIn fp log + 1 < 2 ^ 32 + droppedIn fp log) :
    Tallied fp slot ((TableStage.increment fp).next table).table
      (log ++ ((TableStage.increment fp).next table).answer.toList) := by
  rw [TableStage.next]
  rcases h.counted with ⟨hnone, hgone⟩ | ⟨entry, hfp, hslot, hpos, hcount⟩
  · rw [hnone]
    refine h.concat (fun _ => ?_) ?_ ?_
    · exact (decide_eq_false (Nat.not_lt.mpr hgone)).symm
    · exact .inl ⟨hnone, hgone⟩
    · rw [hnone]
      rfl
  · rw [hfp]
    refine h.concat (fun _ => ?_) (.inr ⟨_, Finmap.lookup_insert .., hslot, ?_, ?_⟩) ?_
    · exact (decide_eq_true (by omega)).symm
    · change 1 ≤ (entry.refCount + 1).toNat
      rw [UInt32.toNat_add]
      change 1 ≤ (entry.refCount.toNat + 1) % 2 ^ 32
      omega
    · rw [if_pos (TableAnswer.counts_self fp)]
      change (entry.refCount + 1).toNat + droppedIn fp log = _
      rw [UInt32.toNat_add]
      change (entry.refCount.toNat + 1) % 2 ^ 32 + droppedIn fp log = _
      omega
    · rw [hfp, Finmap.lookup_insert]
      rfl

/-- A reference to the fingerprint is dropped, and the fingerprint with the last one. -/
theorem Tallied.decrement (h : Tallied fp slot table log) :
    Tallied fp slot ((TableStage.decrement fp).next table).table
      (log ++ ((TableStage.decrement fp).next table).answer.toList) := by
  rw [TableStage.next]
  rcases h.counted with ⟨hnone, hgone⟩ | ⟨entry, hfp, hslot, hpos, hcount⟩
  · rw [hnone]
    refine h.concat (fun _ => ?_) ?_ ?_
    · rw [if_neg (by omega), if_neg (by omega)]
    · rw [if_pos (TableAnswer.drops_self fp _)]
      exact .inl ⟨hnone, Nat.le_succ_of_le hgone⟩
    · rw [hnone]
      rfl
  · rw [hfp]
    dsimp only
    by_cases hone : entry.refCount ≤ 1
    · have hlast : entry.refCount.toNat = 1 := Nat.le_antisymm (UInt32.le_iff_toNat_le.mp hone) hpos
      rw [if_pos hone]
      refine h.concat (fun _ => ?_) ?_ ?_
      · rw [if_neg (by omega), if_pos (by omega), hslot]
      · have hgone : 1 + countedIn fp log ≤ droppedIn fp log + 1 := by omega
        rw [if_pos (TableAnswer.drops_self fp _)]
        exact .inl ⟨Finmap.lookup_erase .., hgone⟩
      · rw [hfp, Finmap.lookup_erase, if_pos (TableAnswer.releases_self fp _)]
        rfl
    · have hlt := UInt32.not_le.mp hone
      have hmore : 1 < entry.refCount.toNat := UInt32.lt_iff_toNat_lt.mp hlt
      have hsub : (entry.refCount - 1).toNat = entry.refCount.toNat - 1 :=
        UInt32.toNat_sub_of_le _ _ (UInt32.le_of_lt hlt)
      rw [if_neg hone]
      refine h.concat (fun _ => ?_) (.inr ⟨_, Finmap.lookup_insert .., hslot, ?_, ?_⟩) ?_
      · rw [if_pos (by omega)]
      · change 1 ≤ (entry.refCount - 1).toNat
        omega
      · have hleft : (entry.refCount - 1).toNat + (droppedIn fp log + 1) = 1 + countedIn fp log := by
          omega
        rw [if_pos (TableAnswer.drops_self fp _)]
        exact hleft
      · rw [hfp, Finmap.lookup_insert]
        rfl

/-- A section of a call that inserts nothing, with fewer than 2^32 references left. -/
theorem Tallied.next (h : Tallied fp slot table log) {stage : TableStage} (hstage : stage.InsertsNothing)
    (hfew : stage = .increment fp → 1 + countedIn fp log + 1 < 2 ^ 32 + droppedIn fp log) :
    Tallied fp slot (stage.next table).table (log ++ (stage.next table).answer.toList) := by
  have hsilent : ∀ {table' : DedupTable}, table'.map.lookup fp = table.map.lookup fp →
      Tallied fp slot table' (log ++ (none : Option TableAnswer).toList) := fun hmap => by
    rw [Option.toList_none, List.append_nil]
    exact h.silent hmap
  have hlookup : ∀ {table' : DedupTable} (fp' : Fingerprint) (result : LookupResult),
      table'.map = table.map → Tallied fp slot table' (log ++ [.lookup fp' result]) :=
    fun fp' result hmap => h.other (by rw [hmap]) rfl rfl rfl fun _ _ => trivial
  cases stage with
  | idle => exact hsilent rfl
  | mightContain fp' data =>
    rw [TableStage.next]
    split
    · exact hsilent rfl
    · exact hlookup fp' .miss rfl
  | get fp' data =>
    rw [TableStage.next]
    split
    · split
      · exact hlookup fp' _ rfl
      · exact hlookup fp' .miss rfl
    · exact hlookup fp' .miss rfl
  | increment fp' =>
    by_cases hfp : fp' = fp
    · rw [hfp] at hfew ⊢
      exact h.increment (hfew rfl)
    · rw [TableStage.next]
      split
      · exact h.other (Finmap.lookup_insert_of_ne _ (Ne.symm hfp)) (decide_eq_false hfp) rfl rfl
          fun _ _ heq => absurd heq hfp
      · exact h.other rfl rfl rfl rfl fun _ _ heq => absurd heq hfp
  | takeRefreshTick fp' => exact hsilent rfl
  | refresh fp' tick => exact hsilent rfl
  | decrement fp' =>
    by_cases hfp : fp' = fp
    · rw [hfp]
      exact h.decrement
    · have hother : ∀ {table' : DedupTable} (removal : ReferenceRemoval),
          table'.map.lookup fp = table.map.lookup fp →
          Tallied fp slot table' (log ++ [.removeReference fp' removal]) := fun removal hmap => by
        refine h.other hmap rfl (decide_eq_false hfp) ?_ fun _ _ heq => absurd heq hfp
        cases removal with
        | removed offset => exact decide_eq_false hfp
        | _ => rfl
      rw [TableStage.next]
      split
      · split
        · exact hother _ (Finmap.lookup_erase_ne (Ne.symm hfp))
        · exact hother _ (Finmap.lookup_insert_of_ne _ (Ne.symm hfp))
      · exact hother _ rfl
  | forget fp' => exact hsilent rfl
  | _ => exact hstage.elim

/-- The dropped references make up for the first one and those that were counted. -/
def Gone (fp : Fingerprint) (log : List TableAnswer) : Prop := 1 + countedIn fp log ≤ droppedIn fp log

/-- Every answer is the one that the count asks for. -/
def AllAsCounted (fp : Fingerprint) (slot : Nat) (log : List TableAnswer) : Prop :=
  Log.Throughout (fun before answer =>
    answer.AsCounted fp slot (countedIn fp before) (droppedIn fp before)) log

/-- The fingerprint is released once at most, with its slot and by the removal that makes up for all
references. Removals before it find more references; after it nothing is tracked. -/
structure ReleasedOnce (fp : Fingerprint) (slot : Nat) (log : List TableAnswer) : Prop where
  asCounted : AllAsCounted fp slot log
  once : log.countP (TableAnswer.releases fp) ≤ 1
  atRelease : ∀ before after offset, log = before ++ .removeReference fp (.removed offset) :: after →
    offset = slot ∧ droppedIn fp before + 1 = 1 + countedIn fp before ∧
    (∀ removal, .removeReference fp removal ∈ before → removal = .stillReferenced) ∧
    (∀ removal, .removeReference fp removal ∈ after → removal = .notTracked) ∧
    ∀ found, .addReference fp found ∈ after → found = false

theorem countedIn_concat (log : List TableAnswer) (answer : TableAnswer) :
    countedIn fp (log ++ [answer]) = countedIn fp log + if answer.counts fp then 1 else 0 := by
  rw [countedIn, List.countP_append, List.countP_singleton, countedIn]

theorem droppedIn_concat (log : List TableAnswer) (answer : TableAnswer) :
    droppedIn fp (log ++ [answer]) = droppedIn fp log + if answer.drops fp then 1 else 0 := by
  rw [droppedIn, List.countP_append, List.countP_singleton, droppedIn]

/-- No reference is counted once they are gone. -/
theorem Gone.concat {answer : TableAnswer} (h : Gone fp log)
    (hanswer : answer.AsCounted fp slot (countedIn fp log) (droppedIn fp log)) :
    Gone fp (log ++ [answer]) := by
  have hcounts : answer.counts fp = false := by
    rw [Bool.eq_false_iff]
    intro hcounts
    cases answer with
    | addReference other found =>
      cases found with
      | true =>
        have hlt := of_decide_eq_true (hanswer (of_decide_eq_true hcounts)).symm
        exact absurd h (Nat.not_le.mpr hlt)
      | false => cases hcounts
    | _ => cases hcounts
  rw [Gone, countedIn_concat, droppedIn_concat, hcounts]
  exact Nat.le_add_right_of_le h

/-- Gone references stay gone. -/
theorem Gone.append {later : List TableAnswer} (hall : AllAsCounted fp slot (log ++ later))
    (h : Gone fp log) : Gone fp (log ++ later) := by
  induction later generalizing log with
  | nil =>
    rw [List.append_nil]
    exact h
  | cons answer later ih =>
    have hanswer := hall log answer later rfl
    rw [List.append_cons] at hall ⊢
    exact ih hall (h.concat hanswer)

theorem gone_removal {removal : ReferenceRemoval} :
    Gone fp (log ++ [.removeReference fp removal]) ↔ 1 + countedIn fp log ≤ droppedIn fp log + 1 := by
  rw [Gone, countedIn_concat, droppedIn_concat, if_pos (TableAnswer.drops_self fp removal)]
  rfl

/-- As long as references are left every removal finds more of them. -/
theorem AllAsCounted.stillReferenced (h : AllAsCounted fp slot log) (hleft : ¬ Gone fp log)
    {removal : ReferenceRemoval} (hmem : .removeReference fp removal ∈ log) :
    removal = .stillReferenced := by
  obtain ⟨before, after, rfl⟩ := List.append_of_mem hmem
  have hanswer : removal = _ := h before _ after rfl rfl
  -- Had this removal dropped the last reference, none would be left at the end.
  have hnot : ¬ Gone fp (before ++ [.removeReference fp removal]) := by
    intro hgone
    rw [List.append_cons] at h hleft
    exact hleft (hgone.append h)
  rw [gone_removal, Nat.not_le] at hnot
  rw [if_pos hnot] at hanswer
  exact hanswer

/-- What is answered once the references are gone. -/
theorem AllAsCounted.asCounted_of_gone {after : List TableAnswer}
    (h : AllAsCounted fp slot (log ++ after)) (hgone : Gone fp log) {answer : TableAnswer}
    (hmem : answer ∈ after) : ∃ counted dropped, 1 + counted ≤ dropped ∧
      answer.AsCounted fp slot counted dropped := by
  obtain ⟨first, later, rfl⟩ := List.append_of_mem hmem
  rw [← List.append_assoc] at h
  exact ⟨_, _, hgone.append (Log.Throughout.of_append h), h _ answer later rfl⟩

/-- What the answers say before and after the release. -/
theorem AllAsCounted.releasedOnce (h : AllAsCounted fp slot log)
    (honce : log.countP (TableAnswer.releases fp) ≤ 1) : ReleasedOnce fp slot log := by
  refine ⟨h, honce, fun before after offset hlog => ?_⟩
  have hrelease := h before _ after hlog rfl
  have hlast : droppedIn fp before + 1 = 1 + countedIn fp before ∧ offset = slot := by
    split_ifs at hrelease with hmore hlast
    cases hrelease
    exact ⟨hlast, rfl⟩
  have hleft : ¬ Gone fp before := by
    unfold Gone
    omega
  have hgone : Gone fp (before ++ [.removeReference fp (.removed offset)]) :=
    gone_removal.mpr hlast.1.ge
  rw [hlog] at h
  have hbefore : AllAsCounted fp slot before := Log.Throughout.of_append h
  rw [List.append_cons] at h
  refine ⟨hlast.2, hlast.1, fun removal hmem => hbefore.stillReferenced hleft hmem,
    fun removal hmem => ?_, fun found hmem => ?_⟩
  · obtain ⟨counted, dropped, hstill, hanswer⟩ := h.asCounted_of_gone hgone hmem
    have hanswer := hanswer rfl
    rw [if_neg (by omega), if_neg (by omega)] at hanswer
    exact hanswer
  · obtain ⟨counted, dropped, hstill, hanswer⟩ := h.asCounted_of_gone hgone hmem
    exact (hanswer rfl).trans (decide_eq_false (Nat.not_lt.mpr hstill))

namespace TableThreads

variable {ι : Type} [DecidableEq ι] {s : TableThreads ι}

omit [DecidableEq ι] in
/-- The step inserts nothing, and a reference that it counts is not the 2^32nd one that is left. -/
def FewReferences (fp : Fingerprint) (s : TableThreads ι) : TableStep ι → Prop
  | .begin _ call => call.InsertsNothing
  | .advance i => s.stage i = .increment fp →
    1 + countedIn fp s.decided + 1 < 2 ^ 32 + droppedIn fp s.decided

omit [DecidableEq ι] in
instance (fp : Fingerprint) (s : TableThreads ι) : DecidablePred (FewReferences fp s)
  | .begin _ call => inferInstanceAs (Decidable call.InsertsNothing)
  | .advance _ => inferInstanceAs (Decidable (_ → _))

omit [DecidableEq ι] in
/-- No insertion is in progress and the references are tallied. -/
structure CountsDown (fp : Fingerprint) (slot : Nat) (s : TableThreads ι) : Prop where
  stages : ∀ i, (s.stage i).InsertsNothing
  tallied : Tallied fp slot s.table s.decided

theorem CountsDown.step (h : s.CountsDown fp slot) {step : TableStep ι}
    (hfew : s.FewReferences fp step) : (s.step step).CountsDown fp slot := by
  have hupdate : ∀ (i : ι) {stage : TableStage}, stage.InsertsNothing →
      ∀ j, (Function.update s.stage i stage j).InsertsNothing := by
    intro i stage hstage j
    by_cases hj : j = i
    · rw [hj, Function.update_self]
      exact hstage
    · rw [Function.update_of_ne hj]
      exact h.stages j
  cases step with
  | begin i call =>
    rw [TableThreads.step]
    split
    · exact ⟨hupdate i (TableStage.insertsNothing_begin hfew), h.tallied⟩
    · exact h
  | advance i =>
    exact ⟨hupdate i (TableStage.insertsNothing_next (h.stages i) s.table),
      h.tallied.next (h.stages i) hfew⟩

/-- From a fingerprint inserted once, every interleaving of calls that count and drop references
releases it once, by the removal that makes up for all of them. -/
theorem finalReference {table : DedupTable} {fp : Fingerprint} {slot : Nat} {prefixBytes : List UInt8}
    (hfp : table.map.lookup fp = some ⟨1, slot, prefixBytes⟩) {steps : List (TableStep ι)}
    (hfew : Run.Along step (FewReferences fp) (start ι table) steps) :
    ReleasedOnce fp slot (Run.run step (start ι table) steps).decided := by
  have hstart : (start ι table).CountsDown fp slot := by
    refine ⟨fun _ => trivial, ⟨.inr ⟨_, hfp, rfl, le_refl 1, rfl⟩, Log.throughout_nil, ?_⟩⟩
    rw [start]
    dsimp only
    rw [hfp]
    rfl
  have hcounts := hfew.invariant (fun _ _ h hfew => h.step hfew) hstart
  refine AllAsCounted.releasedOnce hcounts.tallied.answers ?_
  rw [hcounts.tallied.releases]
  split
  · exact Nat.zero_le 1
  · exact le_refl 1

/-- One thread counts a reference and drops it, the other drops the first one in between. -/
def crossing : List (TableStep Bool) :=
  [.begin false (.addReference fun _ => 7), .begin true (.removeReference fun _ => 7), .advance false,
    .advance true, .advance false, .advance false, .begin false (.removeReference fun _ => 7),
    .advance false, .begin true (.addReference fun _ => 7), .advance true]

theorem finalReference_apply :
    ReleasedOnce (fun _ => 7) 5 (Run.run step
      (start Bool ((DedupTable.new 2 1).track (fun _ => 7) [1] 5)) crossing).decided ∧
    (Run.run step (start Bool ((DedupTable.new 2 1).track (fun _ => 7) [1] 5)) crossing).decided =
      [.addReference (fun _ => 7) true, .removeReference (fun _ => 7) .stillReferenced,
        .removeReference (fun _ => 7) (.removed 5), .addReference (fun _ => 7) false] :=
  ⟨finalReference (Finmap.lookup_insert ..) (by decide +kernel),
    by decide +kernel⟩

end TableThreads

end Animaksm.Proxy
