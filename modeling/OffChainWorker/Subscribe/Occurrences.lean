/-
  The numbers that `extract_helper` gives the actions of a transaction
  (`src/subscribe/transform.rs`).

  The counter map holds for each action how often it has come so far.  As long as the counters do
  not overflow, that is for less than 2 ^ 32 actions, each occurrence of an action is numbered with
  the occurrences before it, however the crate is built.
-/
import OffChainWorker.Lib.Lists
import OffChainWorker.Subscribe.Transform

namespace OffChainWorker

open Proc

/-- **Run lemma**: from counters that are right for the actions `before`. -/
theorem numberActions_occurrences (overflowChecks : Bool) {before actions : List String}
    {seen : String → Option Nat}
    (hseen : ∀ a, (seen a).getD 0 = before.count a)
    (hlength : before.length + actions.length < UInt32.size) :
    numberActions overflowChecks actions seen = .ok (occurrences before actions) := by
  induction actions generalizing before seen with
  | nil => rfl
  | cons action actions ih =>
    rw [List.length_cons] at hlength
    have hcount : before.count action ≤ before.length := List.count_le_length
    have hfits : before.count action + 1 < UInt32.size := by omega
    have hrest : (before ++ [action]).length + actions.length < UInt32.size := by
      rw [List.length_append, List.length_singleton]
      omega
    have hcounted : ∀ a, (if a = action then some (before.count action + 1) else seen a).getD 0 =
        (before ++ [action]).count a := by
      intro a
      rw [List.count_append, List.count_singleton]
      by_cases ha : a = action
      · rw [if_pos ha, ha]
        simp
      · rw [if_neg ha, hseen a]
        simp [Ne.symm ha]
    rw [numberActions, occurrences, hseen action]
    show (countUp overflowChecks (before.count action) >>= fun next =>
      numberActions overflowChecks actions (fun a => if a = action then some next else seen a) >>=
        fun result => pure ((action, before.count action) :: result)) = _
    rw [countUp_of_lt overflowChecks hfits]
    show (numberActions overflowChecks actions _ >>= fun result =>
      pure ((action, before.count action) :: result)) = _
    rw [ih hcounted hrest]
    rfl

/-- **Headline.** Each action gets the number of its earlier occurrences, so no pair comes twice,
    and the occurrences of an action are numbered in order from 0. -/
theorem extractHelper_occurrences (overflowChecks : Bool) (events : Attributes)
    (actions : List String) (hactions : events "message.action" = some actions)
    (hlength : actions.length < UInt32.size) :
    ∃ numbered, extractHelper overflowChecks events = .ok numbered ∧
      numbered.length = actions.length ∧
      (∀ i action, actions[i]? = some action →
        numbered[i]? = some (action, (actions.take i).count action)) ∧
      numbered.Nodup ∧
      ∀ action, (numbered.filter fun p => p.1 = action).map Prod.snd =
        List.range (actions.count action) := by
  have hnumber : numberActions overflowChecks actions (fun _ => none) =
      .ok (occurrences [] actions) :=
    numberActions_occurrences overflowChecks (fun _ => rfl) (by simpa using hlength)
  refine ⟨occurrences [] actions, ?_, length_occurrences [] actions, fun i action h => ?_,
    nodup_occurrences [] actions, fun action => ?_⟩
  · unfold extractHelper
    rw [hactions, ← hnumber]
    rfl
  · rw [getElem?_occurrences, h]
    rfl
  · rw [filter_occurrences, List.range_eq_range']
    rfl

/-- The attributes of a transaction with three actions. -/
def threeActions : Attributes := fun key =>
  if key = "message.action" then some ["report", "OracleRequest", "report"] else none

theorem extractHelper_occurrences_three :
    ∃ numbered, extractHelper true threeActions = .ok numbered ∧
      numbered.length = ["report", "OracleRequest", "report"].length ∧
      (∀ i action, ["report", "OracleRequest", "report"][i]? = some action →
        numbered[i]? =
          some (action, (["report", "OracleRequest", "report"].take i).count action)) ∧
      numbered.Nodup ∧
      ∀ action, (numbered.filter fun p => p.1 = action).map Prod.snd =
        List.range (["report", "OracleRequest", "report"].count action) :=
  extractHelper_occurrences true threeActions _ rfl (by decide)

end OffChainWorker
