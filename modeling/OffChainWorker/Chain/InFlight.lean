/-
  Workers that sign with one key.

  The chain keeps a `Ledger` of the account: it answers a query with the number of committed
  transactions, and takes a transaction only when its sequence is that number plus the ones still
  pending.  Any number of workers, in one process or in many, sign for this account; what each of
  them sees of the ledger is in the log of its node.  Their calls and the blocks come in any order,
  and an answer may be lost on the way, after the transaction was taken or before.

  A worker signs what it broadcasts with an answer that it asked for since its broadcast before
  (`SignedForLatest`), so it is a prompt client of the ledger, whatever its callers ask for.
-/
import OffChainWorker.Chain.Delivery
import OffChainWorker.Chain.Nonce
import OffChainWorker.Lib.Ledger

namespace OffChainWorker.Cosmos

open Proc
open Proc.Ledger (Op toldAfter AsTold Prompt)

variable {N ι : Type}

/-! ## What a call shows of the ledger -/

/-- The account that was answered, or the transaction that was answered for. -/
def shownIn (env : Env N) (i : ι) : NodeCall → List (Op ι)
  | .account _ (.ok (some any)) =>
    ((env.prost.baseAccount.decode any.value).map fun a => .ask i a.sequence.toNat).toList
  | .broadcastTxSync data (.ok response) =>
    ((txSequence env.prost data).map fun sequence =>
      .submit i sequence.toNat (decide (response.code = .ok))).toList
  | _ => []

/-- A broadcast without an answer may have reached the ledger. -/
inductive Shows (env : Env N) (i : ι) : NodeCall → List (Op ι) → Prop where
  | answered (c : NodeCall) : Shows env i c (shownIn env i c)
  | lost {data : Bytes} {sequence : UInt64} {taken : Bool}
      (hdata : txSequence env.prost data = some sequence) :
      Shows env i (.broadcastTxSync data (.error ())) [.submit i sequence.toNat taken]

/-- The operations of a client in the history are the ones that its log shows, or the first of them
    while a `send_msgs` is still under way. -/
def Recorded [DecidableEq ι] (env : Env N) (i : ι) (calls : List NodeCall)
    (history : List (Op ι)) : Prop :=
  ∃ shown, List.Forall₂ (Shows env i) calls shown ∧
    history.filter (Op.isOf i) <+: List.flatten shown

theorem shows_answered (env : Env N) (i : ι) (calls : List NodeCall) :
    List.Forall₂ (Shows env i) calls (calls.map (shownIn env i)) := by
  rw [List.forall₂_map_right_iff]
  exact List.forall₂_same.mpr fun c _ => .answered c

variable {env : Env N}

/-- The sequence that a broadcast is signed with, as the chain reads it. -/
theorem BroadcastFor.sequence {a : BaseAccount} {msgBatch : List Any} {data : Bytes}
    {answer : Except Unit Response}
    (h : BroadcastFor env a msgBatch (.broadcastTxSync data answer)) :
    txSequence env.prost data = some a.sequence := by
  obtain ⟨key, auth, signatures, fee, -, hcarries, hsigned, -⟩ := h
  obtain ⟨info, hinfos, hsequence, -⟩ := hsigned.signer
  cases hcarries with
  | broadcast answer =>
    unfold txSequence
    rw [env.prost.txRaw.decode_encode]
    show (do
      let authInfo ← env.prost.authInfo.decode (env.prost.authInfo.encode auth)
      let signerInfo ← authInfo.signerInfos.head?
      return signerInfo.sequence) = _
    rw [env.prost.authInfo.decode_encode]
    show (auth.signerInfos.head?).bind (fun signerInfo => some signerInfo.sequence) = _
    rw [hinfos, ← hsequence]
    rfl

/-! ## A worker is prompt -/

section
variable [DecidableEq ι] {i : ι}

/-- What the ledger told is the answer that the worker signs with. -/
def Agrees (last : Option BaseAccount) (told : Option Nat) : Prop :=
  ∀ a, last = some a → told = some a.sequence.toNat

/-- One call. -/
theorem shows_asTold {last : Option BaseAccount} {told : Option Nat} {c : NodeCall}
    {ops : List (Op ι)} (h : Shows env i c ops) (hagrees : Agrees last told)
    (hsigned : SignedForFresh env last c) :
    Along (toldAfter i) (AsTold i) told ops ∧
      Agrees (c.freshAfter env last) (ops.foldl (toldAfter i) told) := by
  -- a transaction that is broadcast carries what was told, and afterwards nothing is
  have hsubmit : ∀ {data : Bytes} {answer : Except Unit Response} {sequence : UInt64}
      (taken : Bool), c = .broadcastTxSync data answer →
      txSequence env.prost data = some sequence →
      Along (toldAfter i) (AsTold i) told [.submit i sequence.toNat taken] := by
    rintro data answer sequence taken rfl hdata
    obtain ⟨a, msgBatch, hlast, hbroadcast⟩ := hsigned rfl
    obtain rfl := Option.some.inj (hdata.symm.trans hbroadcast.sequence)
    refine ⟨fun n taken' hop => ?_, trivial⟩
    obtain ⟨-, rfl, -⟩ := Op.submit.inj hop
    exact hagrees a hlast
  cases h with
  | lost hdata => exact ⟨hsubmit _ rfl hdata, fun a ha => absurd ha.symm (Option.some_ne_none a)⟩
  | answered =>
    cases c with
    | account address answer =>
      match answer with
      | .error _ => exact ⟨trivial, hagrees⟩
      | .ok none => exact ⟨trivial, hagrees⟩
      | .ok (some any) =>
        cases hany : env.prost.baseAccount.decode any.value with
        | none =>
          simp only [shownIn, NodeCall.freshAfter, hany]
          exact ⟨trivial, fun a ha => absurd ha.symm (Option.some_ne_none a)⟩
        | some a =>
          simp only [shownIn, NodeCall.freshAfter, hany]
          refine ⟨⟨nofun, trivial⟩, fun a' ha' => ?_⟩
          obtain rfl := Option.some.inj ha'
          exact if_pos rfl
    | broadcastTxSync data answer =>
      refine ⟨?_, fun a ha => absurd ha.symm (Option.some_ne_none a)⟩
      cases answer with
      | error e => trivial
      | ok response =>
        cases hdata : txSequence env.prost data with
        | none =>
          simp only [shownIn, hdata]
          trivial
        | some sequence =>
          simp only [shownIn, hdata]
          exact hsubmit _ rfl hdata
    | balance address denom answer => exact ⟨trivial, hagrees⟩
    | simulate request answer => exact ⟨trivial, hagrees⟩
    | txSearch hash answer => exact ⟨trivial, hagrees⟩

/-- All calls. -/
theorem shows_prompt {calls : List NodeCall} {shown : List (List (Op ι))}
    (h : List.Forall₂ (Shows env i) calls shown) {last : Option BaseAccount} {told : Option Nat}
    (hagrees : Agrees last told) (hsigned : SignedForLatest env last calls) :
    Along (toldAfter i) (AsTold i) told shown.flatten := by
  induction h generalizing last told with
  | nil => trivial
  | cons hc _ ih =>
    obtain ⟨hops, hagrees'⟩ := shows_asTold hc hagrees hsigned.1
    exact along_append.mpr ⟨hops, ih hagrees' hsigned.2⟩

theorem Recorded.prompt {calls : List NodeCall} {history : List (Op ι)}
    (h : Recorded env i calls history) (hsigned : SignedForLatest env none calls) :
    Prompt i history := by
  obtain ⟨shown, hshown, rest, hrest⟩ := h
  have hall : Along (toldAfter i) (AsTold i) none shown.flatten :=
    shows_prompt hshown (fun a ha => absurd ha.symm (Option.some_ne_none a)) hsigned
  rw [← hrest] at hall
  exact (Ledger.prompt_filter i history).mp (along_append.mp hall).1

end

end OffChainWorker.Cosmos

namespace OffChainWorker.Worker

open Proc
open OffChainWorker.Cosmos

/-! ## Headline -/

/-- **Headline.**  Whatever their callers ask for and whenever blocks come, workers that sign with
    one key have one transaction pending at a time (or those of the start), and in no stretch of the
    history more than one transaction more is taken than there are blocks.  A transaction carries
    the sequence that comes next iff nothing was pending when its worker asked for the account, and
    nobody's transaction was taken since. -/
theorem one_in_flight {ι : Type} [DecidableEq ι] {N : ι → Type} (menv : ι → Monitor.Env)
    (env : ∀ i, Cosmos.Env (N i)) (node : ∀ i, N i)
    {s : ∀ i, State (ChainState (N i × List NodeCall))}
    (hs : ∀ i, (loggedWorker (menv i) (env i) (node i)).Reachable (s i))
    {history : List (Ledger.Op ι)} (hlog : ∀ i, Recorded (env i) i (s i).log history)
    (committed pending : Nat) {l : Ledger}
    (hrun : (Ledger.machine ι).exec (.start committed pending) history = some l) :
    l.pending ≤ max pending 1 ∧
    (∀ before mid after u v, history = before ++ mid ++ after →
      (Ledger.machine ι).exec (.start committed pending) before = some u →
      (Ledger.machine ι).exec u mid = some v →
      v.taken - u.taken ≤ v.blocks - u.blocks + 1) ∧
    ∀ before i sequence taken after,
      history = before ++ .submit i sequence taken :: after →
      ∃ before' since u v, before = before' ++ .ask i sequence :: since ∧
        (∀ sequence' taken', .submit i sequence' taken' ∉ since) ∧
        (Ledger.machine ι).exec (.start committed pending) before' = some u ∧
        (Ledger.machine ι).exec u (.ask i sequence :: since) = some v ∧
        (sequence = v.next ↔ u.pending = 0 ∧ v.taken = u.taken) := by
  have hprompt : ∀ i, Ledger.Prompt i history := fun i =>
    (hlog i).prompt (signed_reachable (hs i))
  refine ⟨?_, fun before mid after u v hhistory hu hv => ?_,
    fun before i sequence taken after hhistory => ?_⟩
  · have hwhole : ∀ i, Ledger.Prompt i ([] ++ history ++ []) := by
      intro i
      rw [List.nil_append, List.append_nil]
      exact hprompt i
    exact (Ledger.prompt_paced hwhole rfl hrun).2
  · subst hhistory
    obtain ⟨hpaced, -⟩ := Ledger.prompt_paced hprompt hu hv
    omega
  · subst hhistory
    obtain ⟨before', since, rfl, hsince⟩ := (hprompt i).told
    rw [Machine.exec_append, Machine.exec_append] at hrun
    obtain ⟨v, hv, -⟩ := Option.bind_eq_some_iff.mp hrun
    obtain ⟨u, hu, hv⟩ := Option.bind_eq_some_iff.mp hv
    exact ⟨before', since, u, v, rfl, hsince, hu, hv, (Ledger.told_next hv).2⟩

/-- Two workers ask before either broadcasts: the one that comes first gets both its transactions
    taken, with a block between them, and the other none. -/
def conflictHistory : List (Ledger.Op Bool) :=
  [.ask true 0, .ask false 0, .submit true 0 true, .submit false 0 false, .ask false 0,
    .submit false 0 false, .block 1, .ask true 1, .submit true 1 true]

def conflictEnv (i : Bool) : Cosmos.Env (List Bytes) :=
  demoEnv (if i then commitNode else refusingNode)

theorem conflict_recorded (i : Bool) :
    ∃ s, (loggedWorker Monitor.demoEnv (conflictEnv i) []).Reachable s ∧
      Recorded (conflictEnv i) i s.log conflictHistory := by
  have hrun : ((loggedWorker Monitor.demoEnv (conflictEnv i) []).exec
      (initialState Monitor.demoEnv ⟨none, ([], [])⟩) sendRun).any (fun s =>
        decide (conflictHistory.filter (Ledger.Op.isOf i) <+:
          (s.log.map (shownIn (conflictEnv i) i)).flatten)) = true := by
    cases i <;> decide +kernel
  obtain ⟨s, hs, hprefix⟩ := (Option.any_eq_true _ _).mp hrun
  exact ⟨s, Machine.exec_reachable (.init rfl) hs, _, shows_answered _ i s.log,
    of_decide_eq_true hprefix⟩

theorem one_in_flight_conflict :
    ∃ l, (Ledger.machine Bool).exec (.start 0 0) conflictHistory = some l ∧ l.taken = 2 ∧
      l.pending ≤ max 0 1 ∧ l.taken - 0 ≤ l.blocks - 0 + 1 := by
  choose s hs using conflict_recorded
  have hrun : (Ledger.machine Bool).exec (.start 0 0) conflictHistory = some ⟨1, 1, 2, 1⟩ := by
    decide
  obtain ⟨hpending, hstretch, -⟩ := one_in_flight (fun _ => Monitor.demoEnv) conflictEnv
    (fun _ => []) (fun i => (hs i).1) (fun i => (hs i).2) 0 0 hrun
  exact ⟨_, hrun, rfl, hpending,
    hstretch [] conflictHistory [] _ _ (List.append_nil _).symm rfl hrun⟩

end OffChainWorker.Worker
