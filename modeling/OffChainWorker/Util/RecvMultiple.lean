/-
  Receiving from several channels at once (`src/util/recv_multiple.rs`).

  Both functions let a selection pick a receiver that is ready, and receive from it.  A receiver of
  a disconnected channel is ready too, and receiving from it is an error, whatever waits in the
  other channels.  Receivers are of any type `R`; several keys may share one, and `chans` says what
  channel each of them reads.
-/
import Mathlib.Logic.Function.Basic
import OffChainWorker.Lib.Channel
import OffChainWorker.Lib.Outcome

namespace OffChainWorker

open Proc

/-- `RecvError`. -/
inductive RecvError where
  | disconnected
deriving Repr, DecidableEq

variable {K R T : Type}

/-- The operations that are added to the selection. -/
def receives (rs : List (K × R)) (chans : R → Chan T) : List Bool :=
  rs.map fun p => (chans p.2).isReady

section
variable [DecidableEq R]

/-- `oper.recv(r)`, with the key that `r` is paired with. -/
def operRecv (p : K × R) : Action (R → Chan T) RecvError (K × T) := fun chans =>
  match (chans p.2).recv with
  | .received result c => (.ok (p.1, result), Function.update chans p.2 c)
  | .disconnected => (.err .disconnected, chans)
  -- not the operation that was selected
  | .empty => (.panic, chans)

/-- From the index of the selected operation on. -/
def completeRecv (rs : List (K × R)) (index : Nat) : Action (R → Chan T) RecvError (K × T) := do
  let p ← Action.lift (Outcome.unwrap rs[index]?)
  operRecv p

/-- `try_recv_multiple`; its `None` is an error without a value here. -/
def tryRecvMultiple (sel : Select) (rs : List (K × R)) (chans : R → Chan T) :
    Outcome Unit (K × T) × (R → Chan T) :=
  match sel.trySelect (receives rs chans) with
  | none => (.err (), chans)
  | some index =>
    match completeRecv rs index chans with
    | (.ok result, chans) => (.ok result, chans)
    | (.err _, chans) => (.err (), chans)
    | (.panic, chans) => (.panic, chans)

/-- `recv_multiple`; `none` while it waits.  A selection without operations panics. -/
def recvMultiple (sel : Select) (rs : List (K × R)) (chans : R → Chan T) :
    Option (Outcome RecvError (K × T) × (R → Chan T)) :=
  if rs.isEmpty then some (.panic, chans)
  else (sel.trySelect (receives rs chans)).map fun index => completeRecv rs index chans

end

/-! ## One receive -/

/-- A message was received: the oldest of a channel that is paired with the key, and all other
    channels are as they were. -/
def ReceivedFrom (rs : List (K × R)) (chans chans' : R → Chan T) (k : K) (v : T) : Prop :=
  ∃ r rest, (k, r) ∈ rs ∧ (chans r).queue = v :: rest ∧
    chans' r = { chans r with queue := rest } ∧ ∀ r', r' ≠ r → chans' r' = chans r'

/-- No channel in the list has a message. -/
def Quiet (rs : List (K × R)) (chans : R → Chan T) : Prop := ∀ p ∈ rs, (chans p.2).queue = []

/-- Some channel in the list would answer `disconnected`. -/
def SomeDead (rs : List (K × R)) (chans : R → Chan T) : Prop := ∃ p ∈ rs, (chans p.2).isDead = true

/-- When nothing is selected, no channel has a message. -/
theorem quiet_of_none {sel : Select} {rs : List (K × R)} {chans : R → Chan T}
    (hsel : sel.trySelect (receives rs chans) = none) : Quiet rs chans := by
  intro p hp
  have hready := sel.notReady hsel _ (List.mem_map_of_mem hp)
  unfold Chan.isReady at hready
  rw [Bool.or_eq_false_iff, Bool.not_eq_false', List.isEmpty_iff] at hready
  exact hready.1

variable [DecidableEq R]

theorem operRecv_ok {p : K × R} {chans chans' : R → Chan T} {k : K} {v : T}
    (h : operRecv p chans = (.ok (k, v), chans')) :
    k = p.1 ∧ ∃ rest, (chans p.2).queue = v :: rest ∧
      chans' = Function.update chans p.2 { chans p.2 with queue := rest } := by
  unfold operRecv at h
  split at h
  · rename_i result c hrecv
    obtain ⟨hresult, rfl⟩ := Prod.mk.inj h
    obtain ⟨rfl, rfl⟩ := Prod.mk.inj (Outcome.ok.inj hresult)
    obtain ⟨rest, hqueue, rfl⟩ := Chan.queue_of_recv hrecv
    exact ⟨rfl, rest, hqueue, rfl⟩
  · nomatch h
  · nomatch h

/-- A receive fails exactly on a dead channel. -/
theorem operRecv_err_iff {p : K × R} {chans chans' : R → Chan T} {e : RecvError} :
    operRecv p chans = (.err e, chans') ↔ (chans p.2).isDead = true ∧ chans' = chans := by
  rw [← Chan.recv_disconnected_iff]
  unfold operRecv
  cases e
  cases (chans p.2).recv with
  | received result c => exact iff_of_false nofun nofun
  | disconnected =>
    exact ⟨fun h => ⟨rfl, (Prod.mk.inj h).2.symm⟩, fun h => by rw [h.2]⟩
  | empty => exact iff_of_false nofun nofun

theorem operRecv_ne_panic {p : K × R} {chans : R → Chan T} (hready : (chans p.2).isReady = true) :
    (operRecv p chans).1 ≠ .panic := by
  have hrecv : (chans p.2).recv ≠ .empty := by
    rw [ne_eq, Chan.recv_empty_iff, hready]
    decide
  unfold operRecv
  split
  · nofun
  · nofun
  · rename_i hempty
    exact absurd hempty hrecv

theorem completeRecv_at {rs : List (K × R)} {index : Nat} {p : K × R} (h : rs[index]? = some p)
    (chans : R → Chan T) : completeRecv rs index chans = operRecv p chans := by
  unfold completeRecv
  rw [h]
  rfl

/-- An operation that was selected is one of the list, and ready. -/
theorem selected {sel : Select} {rs : List (K × R)} {chans : R → Chan T} {index : Nat}
    (hsel : sel.trySelect (receives rs chans) = some index) :
    ∃ p ∈ rs, (chans p.2).isReady = true ∧ completeRecv rs index chans = operRecv p chans := by
  have hready := sel.ready hsel
  unfold receives at hready
  rw [List.getElem?_map, Option.map_eq_some_iff] at hready
  obtain ⟨p, hindex, hready⟩ := hready
  exact ⟨p, List.mem_of_getElem? hindex, hready, completeRecv_at hindex chans⟩

/-- A dead channel may be the one that is selected. -/
theorem exists_select_dead {rs : List (K × R)} {chans : R → Chan T} (h : SomeDead rs chans) :
    ∃ (sel : Select) (index : Nat), sel.trySelect (receives rs chans) = some index ∧
      completeRecv rs index chans = (.err .disconnected, chans) := by
  obtain ⟨p, hp, hdead⟩ := h
  obtain ⟨index, hindex⟩ := List.getElem?_of_mem hp
  refine ⟨.preferring index, index, Select.preferring_ready ?_, ?_⟩
  · unfold receives
    rw [List.getElem?_map, hindex]
    exact congrArg some (Chan.isReady_of_isDead hdead)
  · rw [completeRecv_at hindex]
    exact operRecv_err_iff.mpr ⟨hdead, rfl⟩

/-! ## Both functions -/

theorem tryRecvMultiple_ok {sel : Select} {rs : List (K × R)} {chans chans' : R → Chan T} {k : K}
    {v : T} (h : tryRecvMultiple sel rs chans = (.ok (k, v), chans')) :
    ∃ index, sel.trySelect (receives rs chans) = some index ∧
      completeRecv rs index chans = (.ok (k, v), chans') := by
  unfold tryRecvMultiple at h
  split at h
  · nomatch h
  · rename_i index hsel
    refine ⟨index, hsel, ?_⟩
    cases hrun : completeRecv rs index chans with
    | mk result chans'' =>
      rw [hrun] at h
      cases result with
      | ok result =>
        obtain ⟨hresult, rfl⟩ := Prod.mk.inj h
        rw [Outcome.ok.inj hresult]
      | err e => nomatch h
      | panic => nomatch h

/-- `None` means that nothing was ready, or that a dead channel was selected. -/
theorem tryRecvMultiple_err {sel : Select} {rs : List (K × R)} {chans chans' : R → Chan T}
    (h : tryRecvMultiple sel rs chans = (.err (), chans')) :
    Quiet rs chans ∨ SomeDead rs chans := by
  unfold tryRecvMultiple at h
  split at h
  · rename_i hsel
    exact .inl (quiet_of_none hsel)
  · rename_i index hsel
    obtain ⟨p, hp, -, hrun⟩ := selected hsel
    rw [hrun] at h
    cases hrecv : operRecv p chans with
    | mk result chans'' =>
      rw [hrecv] at h
      cases result with
      | ok result => nomatch h
      | err e => exact .inr ⟨p, hp, (operRecv_err_iff.mp hrecv).1⟩
      | panic => nomatch h

theorem recvMultiple_some {sel : Select} {rs : List (K × R)} {chans chans' : R → Chan T}
    {result : Outcome RecvError (K × T)} (h : recvMultiple sel rs chans = some (result, chans'))
    (hresult : result ≠ .panic) :
    ∃ index, sel.trySelect (receives rs chans) = some index ∧
      completeRecv rs index chans = (result, chans') := by
  unfold recvMultiple at h
  split at h
  · exact absurd (Prod.mk.inj (Option.some.inj h)).1.symm hresult
  · exact Option.map_eq_some_iff.mp h

/-- What was completed as a message was received from a channel of the list. -/
theorem receivedFrom_of_selected {sel : Select} {rs : List (K × R)} {chans chans' : R → Chan T}
    {index : Nat} {k : K} {v : T} (hsel : sel.trySelect (receives rs chans) = some index)
    (h : completeRecv rs index chans = (.ok (k, v), chans')) :
    ReceivedFrom rs chans chans' k v := by
  obtain ⟨p, hp, -, hrun⟩ := selected hsel
  rw [hrun] at h
  obtain ⟨rfl, rest, hqueue, rfl⟩ := operRecv_ok h
  exact ⟨p.2, rest, hp, hqueue, Function.update_self ..,
    fun r' hr' => Function.update_of_ne hr' ..⟩

/-- Neither function panics on receivers that are there. -/
theorem recv_ne_panic (sel : Select) (rs : List (K × R)) (hrs : rs ≠ []) (chans : R → Chan T) :
    (tryRecvMultiple sel rs chans).1 ≠ .panic ∧
      ∀ chans', recvMultiple sel rs chans ≠ some (.panic, chans') := by
  have hcomplete : ∀ index, sel.trySelect (receives rs chans) = some index →
      (completeRecv rs index chans).1 ≠ .panic := by
    intro index hsel
    obtain ⟨p, -, hready, hrun⟩ := selected hsel
    rw [hrun]
    exact operRecv_ne_panic hready
  constructor
  · unfold tryRecvMultiple
    split
    · nofun
    · rename_i index hsel
      have hrun := hcomplete index hsel
      split
      · nofun
      · nofun
      · rename_i hpanic
        exact absurd (congrArg Prod.fst hpanic) hrun
  · intro chans' h
    unfold recvMultiple at h
    rw [if_neg (by simpa using hrs)] at h
    obtain ⟨index, hsel, hrun⟩ := Option.map_eq_some_iff.mp h
    exact hcomplete index hsel (congrArg Prod.fst hrun)

theorem tryRecvMultiple_quiet_iff (rs : List (K × R)) (chans : R → Chan T) :
    (∀ sel chans', tryRecvMultiple sel rs chans = (.err (), chans') → Quiet rs chans) ↔
      Quiet rs chans ∨ ¬ SomeDead rs chans := by
  constructor
  · intro h
    by_cases hdead : SomeDead rs chans
    · obtain ⟨sel, index, hsel, hrun⟩ := exists_select_dead hdead
      have hnone : tryRecvMultiple sel rs chans = (.err (), chans) := by
        unfold tryRecvMultiple
        rw [hsel]
        dsimp only
        rw [hrun]
      exact .inl (h sel chans hnone)
    · exact .inr hdead
  · rintro (hquiet | hdead) sel chans' h
    · exact hquiet
    · exact (tryRecvMultiple_err h).resolve_right hdead

theorem recvMultiple_quiet_iff (rs : List (K × R)) (chans : R → Chan T) :
    (∀ sel e chans', recvMultiple sel rs chans = some (.err e, chans') → Quiet rs chans) ↔
      Quiet rs chans ∨ ¬ SomeDead rs chans := by
  constructor
  · intro h
    by_cases hdead : SomeDead rs chans
    · obtain ⟨sel, index, hsel, hrun⟩ := exists_select_dead hdead
      have herror : recvMultiple sel rs chans = some (.err .disconnected, chans) := by
        obtain ⟨p, hp, -⟩ := hdead
        unfold recvMultiple
        rw [if_neg (by simpa using List.ne_nil_of_mem hp), hsel]
        exact congrArg some hrun
      exact .inl (h sel .disconnected chans herror)
    · exact .inr hdead
  · rintro (hquiet | hdead) sel e chans' h
    · exact hquiet
    · obtain ⟨index, hsel, hrun⟩ := recvMultiple_some h nofun
      obtain ⟨p, hp, -, hcomplete⟩ := selected hsel
      rw [hcomplete] at hrun
      exact absurd ⟨p, hp, (operRecv_err_iff.mp hrun).1⟩ hdead

/-- **Headline.** A message is missed by no selection iff there is none, or no channel of the list
    is disconnected and empty; and what is received is the oldest message of one channel. -/
theorem recv_misses_nothing_iff (rs : List (K × R)) (chans : R → Chan T) :
    ((∀ sel chans', tryRecvMultiple sel rs chans = (.err (), chans') → Quiet rs chans) ↔
      Quiet rs chans ∨ ¬ SomeDead rs chans) ∧
    ((∀ sel e chans', recvMultiple sel rs chans = some (.err e, chans') → Quiet rs chans) ↔
      Quiet rs chans ∨ ¬ SomeDead rs chans) ∧
    ∀ sel k v chans', (tryRecvMultiple sel rs chans = (.ok (k, v), chans') ∨
        recvMultiple sel rs chans = some (.ok (k, v), chans')) →
      ReceivedFrom rs chans chans' k v := by
  refine ⟨tryRecvMultiple_quiet_iff rs chans, recvMultiple_quiet_iff rs chans, ?_⟩
  rintro sel k v chans' (h | h)
  · obtain ⟨index, hsel, hrun⟩ := tryRecvMultiple_ok h
    exact receivedFrom_of_selected hsel hrun
  · obtain ⟨index, hsel, hrun⟩ := recvMultiple_some h nofun
    exact receivedFrom_of_selected hsel hrun

/-- A channel whose senders are gone, next to one with a message. -/
def deadAndWaiting : Bool → Chan Nat
  | false => ⟨none, [], false, true⟩
  | true => ⟨none, [7], true, true⟩

/-- The first channel is selected, and the message in the second is not received. -/
theorem dead_channel_selected :
    ¬ ∀ (rs : List (String × Bool)) (chans : Bool → Chan Nat) (sel : Select)
        (chans' : Bool → Chan Nat), rs ≠ [] →
      tryRecvMultiple sel rs chans = (.err (), chans') → Quiet rs chans := by
  intro h
  have hquiet := h [("ibc-0", false), ("ibc-1", true)] deadAndWaiting (.preferring 0)
    deadAndWaiting (by decide) rfl
  have hempty := hquiet ("ibc-1", true) (by decide)
  nomatch hempty

end OffChainWorker
