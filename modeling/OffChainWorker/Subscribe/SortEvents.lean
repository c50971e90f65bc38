/-
  `sort_events` and the contract of `sort_by` (`src/subscribe/monitor.rs`).

  The comparator puts a `NewBlock` before everything, also before itself and before another
  `NewBlock`, so it is no preorder as soon as a list has one.  The sort then owes nothing but a
  rearrangement, and any rearrangement is an answer that its contract admits.
-/
import OffChainWorker.Subscribe.Batches

namespace OffChainWorker

open Proc

def isNewBlock : Event → Bool
  | .newBlock _ => true
  | _ => false

/-- The `NewBlock` events first, and the other events as they are. -/
def newBlocksFirst (events : List Event) : List Event :=
  events.filter isNewBlock ++ events.filter fun e => !isNewBlock e

theorem isNewBlock_iff {e : Event} : isNewBlock e = true ↔ ∃ ev, e = .newBlock ev := by
  cases e with
  | newBlock ev => exact iff_of_true rfl ⟨ev, rfl⟩
  | empty ev => exact iff_of_false Bool.false_ne_true nofun
  | chainError ev => exact iff_of_false Bool.false_ne_true nofun

theorem forall_not_newBlock_iff {events : List Event} :
    (∀ ev, .newBlock ev ∉ events) ↔ ∀ e ∈ events, isNewBlock e = false := by
  constructor
  · intro h e he
    rw [Bool.eq_false_iff]
    intro hnew
    obtain ⟨ev, rfl⟩ := isNewBlock_iff.mp hnew
    exact h ev he
  · intro h ev hev
    exact Bool.noConfusion (h _ hev)

/-! ## The comparator -/

theorem compareEvents_other {e : Event} (h : isNewBlock e = false) (e' : Event) :
    compareEvents e e' = .eq := by
  cases e with
  | newBlock ev => nomatch h
  | empty ev => rfl
  | chainError ev => rfl

/-- The comparator is what `sort_by` requires on the lists without a `NewBlock` alone. -/
theorem totalPreorderOn_compareEvents_iff {events : List Event} :
    TotalPreorderOn compareEvents events ↔ ∀ e ∈ events, isNewBlock e = false := by
  constructor
  · intro h e he
    rw [Bool.eq_false_iff]
    intro hnew
    obtain ⟨ev, rfl⟩ := isNewBlock_iff.mp hnew
    nomatch h.refl _ he
  · intro h
    refine ⟨fun e he => compareEvents_other (h e he) e, fun e he e' he' => ?_,
      fun e he e' he' e'' _ _ _ => ?_⟩
    · rw [compareEvents_other (h e he), compareEvents_other (h e' he')]
      rfl
    · rw [compareEvents_other (h e he)]
      rfl

/-! ## The result -/

theorem newBlocksFirst_of_none {events : List Event} (h : ∀ e ∈ events, isNewBlock e = false) :
    newBlocksFirst events = events := by
  have hnone : events.filter isNewBlock = [] :=
    List.filter_eq_nil_iff.mpr fun e he => Bool.eq_false_iff.mp (h e he)
  have hall : (events.filter fun e => !isNewBlock e) = events :=
    List.filter_eq_self.mpr fun e he => by rw [h e he]; rfl
  unfold newBlocksFirst
  rw [hnone, hall]
  rfl

theorem newBlocksFirst_perm (events : List Event) : (newBlocksFirst events).Perm events :=
  List.filter_append_perm isNewBlock events

/-- Without a `NewBlock` everything stays in its place. -/
theorem sortEvents_of_none (S : StableSort Event) {events : List Event}
    (h : ∀ e ∈ events, isNewBlock e = false) : sortEvents S events = events := by
  unfold sortEvents
  rw [S.stable compareEvents events (totalPreorderOn_compareEvents_iff.mpr h)]
  refine List.mergeSort_of_pairwise (List.pairwise_of_forall_mem_list fun e he e' _ => ?_)
  rw [compareEvents_other (h e he)]
  rfl

/-- With a `NewBlock` and any other event, the contract of the sort admits another order. -/
theorem exists_sortEvents_ne {events : List Event} {ev : NewBlock} {e : Event}
    (hev : .newBlock ev ∈ events) (he : e ∈ events) (hne : e ≠ .newBlock ev) :
    ∃ S, sortEvents S events ≠ newBlocksFirst events := by
  have hbroken : ¬ TotalPreorderOn compareEvents events := by
    rw [totalPreorderOn_compareEvents_iff, ← forall_not_newBlock_iff]
    exact fun h => h ev hev
  obtain ⟨p, hp, hother⟩ := exists_perm_ne he hev hne (newBlocksFirst_perm events)
  obtain ⟨S, hS⟩ := StableSort.exists_sortBy_eq hbroken hp
  exact ⟨S, fun heq => hother (hS.symm.trans heq)⟩

/-- Equal events come out as they went in. -/
theorem sortEvents_of_forall_eq (S : StableSort Event) {events : List Event} {e : Event}
    (h : ∀ e' ∈ events, e' = e) : sortEvents S events = newBlocksFirst events := by
  have hfirst : newBlocksFirst events = events :=
    eq_of_perm_of_forall_eq (newBlocksFirst_perm events) h
  unfold sortEvents
  rw [S.sortBy_of_forall_eq compareEvents h, hfirst]

/-- Without a `NewBlock` there is nothing to partition. -/
theorem sortEvents_partition {events : List Event} (h : ∀ ev, .newBlock ev ∉ events)
    (S : StableSort Event) : sortEvents S events = newBlocksFirst events := by
  rw [forall_not_newBlock_iff] at h
  rw [sortEvents_of_none S h, newBlocksFirst_of_none h]

/-- **Headline.** The comparator keeps the contract of the sort, and the events are partitioned, iff
    there is no `NewBlock` among them; and the result alone can be counted on in no other case than
    that all events are the same. -/
theorem sort_events_iff (events : List Event) :
    (TotalPreorderOn compareEvents events ∧ (∀ S, sortEvents S events = newBlocksFirst events) ↔
      ∀ ev, .newBlock ev ∉ events) ∧
    ((∀ S, sortEvents S events = newBlocksFirst events) ↔
      (∀ ev, .newBlock ev ∉ events) ∨ ∃ e, ∀ e' ∈ events, e' = e) := by
  rw [totalPreorderOn_compareEvents_iff, ← forall_not_newBlock_iff]
  refine ⟨and_iff_left_of_imp sortEvents_partition, ?_, ?_⟩
  · intro h
    by_cases hnone : ∀ ev, .newBlock ev ∉ events
    · exact .inl hnone
    · obtain ⟨ev, hev⟩ := Classical.not_forall.mp hnone
      refine .inr ⟨.newBlock ev, ?_⟩
      intro e he
      by_cases hsame : e = .newBlock ev
      · exact hsame
      · obtain ⟨S, hS⟩ := exists_sortEvents_ne (Classical.not_not.mp hev) he hsame
        exact absurd (h S) hS
  · rintro (h | ⟨e, h⟩) S
    · exact sortEvents_partition h S
    · exact sortEvents_of_forall_eq S h

/-- A block before another one, and before itself. -/
theorem newBlock_before_itself :
    ¬ ∀ events : List Event, TotalPreorderOn compareEvents events ∧
        ∀ S, sortEvents S events = newBlocksFirst events := by
  intro h
  have heq := (h [.newBlock ⟨5⟩, .newBlock ⟨6⟩]).1.refl (.newBlock ⟨5⟩) (List.mem_cons_self ..)
  nomatch heq

end OffChainWorker
