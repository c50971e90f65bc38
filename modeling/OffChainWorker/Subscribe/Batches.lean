/-
  From RPC events to event batches: `stream_batches` (`src/subscribe/monitor.rs`).

  The stream that `run_loop` selects on is a generator with three pieces of state: the unfinished
  group of `try_group_while`, the items it has still to yield (a suspended `yield` keeps the rest of
  its turn), and whether its input has ended.  It pulls the next item from the subscriptions only
  when it has nothing left to yield.

  `held` is what such a generator has taken off the subscriptions and not handed on yet.  Pulling an
  item appends the item's pairs to it (`feed_held`), the end of the input changes nothing
  (`finish_held`), and when the generator yields an error there is nothing else left in it
  (`ErrorLast`).  Since the extraction only makes new-block events, a batch holds one and the same
  event and sorting it changes nothing (`toBatch_pairs`).
-/
import OffChainWorker.Lib.Sort
import OffChainWorker.Subscribe.Transform
import OffChainWorker.Util.Stream

namespace OffChainWorker

open Proc

/-! ## Errors of the monitor -/

/-- `tendermint_rpc::error::Code`, as far as the monitor tells codes apart. -/
inductive Code where
  | serverError
  | other (code : Int)
deriving Repr, DecidableEq

/-- `tendermint_rpc::Error`. -/
structure RpcError where
  code : Code
  data : Option String
deriving Repr, DecidableEq

/-- `monitor::Error`, the variants that `run_loop` receives or sends. -/
inductive MonitorError where
  | webSocketDriver (e : RpcError)
  | subscriptionCancelled (e : RpcError)
  | genericRpcError (e : RpcError)
deriving Repr, DecidableEq

/-- A list begins with `needle` at some position. -/
def listContains (needle : List Char) : List Char → Bool
  | [] => needle.isEmpty
  | c :: rest => needle.isPrefixOf (c :: rest) || listContains needle rest

/-- `msg.contains(needle)`. -/
def strContains (needle msg : String) : Bool := listContains needle.toList msg.toList

/-- `Error::canceled_or_generic`. -/
def canceledOrGeneric (e : RpcError) : MonitorError :=
  match e.code, e.data with
  | .serverError, some msg =>
    if strContains "subscription was cancelled" msg then .subscriptionCancelled e
    else .genericRpcError e
  | _, _ => .genericRpcError e

/-! ## Batches -/

/-- A batch of events from a chain at a specific height. -/
structure EventBatch where
  chainId : String
  height : Height
  events : List Event
deriving Repr, DecidableEq

/-- The comparator of `sort_events`. -/
def compareEvents : Event → Event → Ordering
  | .newBlock _, _ => .lt
  | _, _ => .eq

/-- `sort_events`. -/
def sortEvents (S : StableSort Event) (events : List Event) : List Event :=
  S.sortBy compareEvents events

/-- The `map_ok` closure of `stream_batches`; `none` is its `expect` on an empty group. -/
def toBatch (S : StableSort Event) (chainId : String) : List (Height × Event) → Option EventBatch
  | [] => none
  | (h, e) :: rest => some ⟨chainId, h, sortEvents S (((h, e) :: rest).map Prod.snd)⟩

/-- The height and event pairs of a batch. -/
def EventBatch.pairs (b : EventBatch) : List (Height × Event) := b.events.map fun e => (b.height, e)

/-- The predicate of the grouping: `|(h0, _), (h1, _)| h0 == h1`. -/
def sameHeight (p q : Height × Event) : Bool := p.1 == q.1

/-! ## The generator -/

/-- The state of the batch stream. -/
structure Batches where
  state : Option (GroupState (Height × Event))
  out : List (Except MonitorError (List (Height × Event)))
  ended : Bool
deriving Repr

namespace Batches

def new : Batches := ⟨none, [], false⟩

/-- What one item of the subscriptions becomes for the grouping: the pairs of an event, or the
    classified error.  `none` when the extraction panics. -/
def itemsOf (p : Parsers) (chainId : String) :
    Except RpcError RpcEvent → Option (List (Except MonitorError (Height × Event)))
  | .ok event => (collectEvents p chainId event).map fun vals => vals.map .ok
  | .error e => some [.error (canceledOrGeneric e)]

/-- Take one item off the subscriptions; `none` when the extraction panics. -/
def feed (p : Parsers) (chainId : String) (b : Batches) (item : Except RpcError RpcEvent) :
    Option Batches :=
  (itemsOf p chainId item).map fun items =>
    let r := tryGroupSteps sameHeight b.state items
    { b with state := r.1, out := b.out ++ r.2 }

/-- The subscriptions have ended. -/
def finish (b : Batches) : Batches where
  state := none
  out := b.out ++ tryGroupEnd b.state
  ended := true

/-- The pairs taken off the subscriptions and not handed on. -/
def held (b : Batches) : List (Height × Event) := yielded b.out ++ pending b.state

/-- The pairs of one subscription item. -/
def pairsOf (p : Parsers) (chainId : String) : Except RpcError RpcEvent → List (Height × Event)
  | .ok event => (collectEvents p chainId event).getD []
  | .error _ => []

/-! ## Nothing is lost inside the generator -/

theorem itemsOf_pairs {p : Parsers} {chainId : String} {item : Except RpcError RpcEvent}
    {items : List (Except MonitorError (Height × Event))}
    (h : itemsOf p chainId item = some items) :
    items.flatMap itemOf = pairsOf p chainId item := by
  cases item with
  | error e =>
    obtain rfl := Option.some.inj h
    rfl
  | ok event =>
    obtain ⟨vals, hvals, rfl⟩ := Option.map_eq_some_iff.mp h
    rw [pairsOf, hvals]
    induction vals with
    | nil => rfl
    | cons v vals => simp [itemOf, List.flatMap_map]

/-- **Step lemma**: pulling an item appends its pairs to what is held. -/
theorem feed_held {p : Parsers} {chainId : String} {b b' : Batches}
    {item : Except RpcError RpcEvent} (h : b.feed p chainId item = some b') :
    b'.held = b.held ++ pairsOf p chainId item := by
  obtain ⟨items, hitems, rfl⟩ := Option.map_eq_some_iff.mp h
  have hcons := tryGroupSteps_conserves sameHeight b.state items
  rw [itemsOf_pairs hitems] at hcons
  simp only [held, yielded_append, List.append_assoc]
  rw [hcons]

theorem finish_held (b : Batches) : b.finish.held = b.held := by
  simp [held, finish, yielded_tryGroupEnd, pending]

/-! ## An error is the last thing the generator has -/

/-- When an error is to be yielded, nothing comes after it and nothing is pending. -/
def ErrorLast (b : Batches) : Prop :=
  ∀ groups e rest, b.out = groups ++ .error e :: rest → rest = [] ∧ b.state = none

theorem errorLast_new : ErrorLast new := by
  intro groups e rest h
  exact absurd h.symm (by simp [new])

/-- A list of groups contains no error. -/
theorem no_error_in_groups {gs : List (List (Height × Event))}
    {groups rest : List (Except MonitorError (List (Height × Event)))} {e : MonitorError} :
    gs.map .ok ≠ groups ++ .error e :: rest := by
  intro h
  have hmem : Except.error e ∈ gs.map (Except.ok (ε := MonitorError)) := by
    rw [h]
    exact List.mem_append_right groups List.mem_cons_self
  obtain ⟨g, _, hg⟩ := List.mem_map.mp hmem
  nomatch hg

/-- The pairs of an event make the generator yield groups only. -/
theorem tryGroupSteps_ok (state : Option (GroupState (Height × Event)))
    (vals : List (Height × Event)) :
    ∃ gs : List (List (Height × Event)),
      (tryGroupSteps sameHeight state (vals.map (Except.ok (ε := MonitorError)))).2
        = gs.map .ok := by
  induction vals generalizing state with
  | nil => exact ⟨[], rfl⟩
  | cons v vals ih =>
    obtain ⟨gs, hgs⟩ := tryGroupStep_ok (E := MonitorError) sameHeight state v
    obtain ⟨gs', hgs'⟩ := ih (tryGroupStep (E := MonitorError) sameHeight state (.ok v)).1
    refine ⟨gs ++ gs', ?_⟩
    rw [List.map_cons, tryGroupSteps, List.map_append, ← hgs, ← hgs']

theorem feed_errorLast {p : Parsers} {chainId : String} {b b' : Batches}
    {item : Except RpcError RpcEvent} (hout : b.out = [])
    (h : b.feed p chainId item = some b') : ErrorLast b' := by
  obtain ⟨items, hitems, rfl⟩ := Option.map_eq_some_iff.mp h
  cases item with
  | error e =>
    obtain rfl := Option.some.inj hitems
    obtain ⟨gs, hgs⟩ := tryGroupStep_error sameHeight b.state (canceledOrGeneric e)
    have hsteps : tryGroupSteps sameHeight b.state [.error (canceledOrGeneric e)]
        = (none, gs.map .ok ++ [.error (canceledOrGeneric e)]) := by
      rw [tryGroupSteps, tryGroupSteps, hgs]
      simp
    intro groups e' rest hsplit
    simp only [hout, hsteps, List.nil_append] at hsplit ⊢
    -- the error of the split is the one just yielded, or it would lie among the groups
    rcases List.append_eq_append_iff.mp hsplit with ⟨as, rfl, hrest⟩ | ⟨bs, hgroups, hrest⟩
    · cases as with
      | nil => exact ⟨(List.cons.inj hrest).2.symm, trivial⟩
      | cons a as => exact absurd (List.cons.inj hrest).2.symm (by simp)
    · cases bs with
      | nil => exact ⟨(List.cons.inj hrest.symm).2.symm, trivial⟩
      | cons b bs =>
        obtain ⟨rfl, _⟩ := List.cons.inj hrest.symm
        exact absurd hgroups no_error_in_groups
  | ok event =>
    obtain ⟨vals, _, rfl⟩ := Option.map_eq_some_iff.mp hitems
    obtain ⟨gs, hgs⟩ := tryGroupSteps_ok b.state vals
    intro groups e rest hsplit
    simp only [hout, hgs, List.nil_append] at hsplit
    exact absurd hsplit no_error_in_groups

theorem ErrorLast.tail {b : Batches} (h : b.ErrorLast)
    {x : Except MonitorError (List (Height × Event))}
    {rest : List (Except MonitorError (List (Height × Event)))} (hout : b.out = x :: rest) :
    ErrorLast { b with out := rest } := by
  intro groups e rest' hsplit
  have hrest : rest = groups ++ .error e :: rest' := hsplit
  exact h (x :: groups) e rest' (by rw [hout, hrest]; rfl)

theorem finish_errorLast {b : Batches} (hout : b.out = []) : b.finish.ErrorLast := by
  intro groups e rest hsplit
  have hgs : ∃ gs : List (List (Height × Event)), b.finish.out = gs.map .ok := by
    cases hst : b.state with
    | none => exact ⟨[], by simp [finish, hout, hst, tryGroupEnd]⟩
    | some st => exact ⟨[st.group ++ [st.cur]], by simp [finish, hout, hst, tryGroupEnd]⟩
  obtain ⟨gs, hgs⟩ := hgs
  exact absurd (hgs.symm.trans hsplit) no_error_in_groups

/-- When the generator yields an error it holds nothing. -/
theorem ErrorLast.held_eq_nil {b : Batches} (h : b.ErrorLast) {e : MonitorError}
    {rest : List (Except MonitorError (List (Height × Event)))} (hout : b.out = .error e :: rest) :
    b.held = [] := by
  obtain ⟨hrest, hstate⟩ := h [] e rest hout
  simp [held, hout, hrest, hstate, yielded, pending]

/-! ## A batch is one new block, as often as it was pulled -/

/-- Pairs that are all the new block of one height. -/
def Uniform (g : List (Height × Event)) : Prop :=
  ∃ h : Height, ∀ pair ∈ g, pair = (h, .newBlock ⟨h⟩)

/-- Every group is non-empty and uniform, and so is the unfinished one. -/
structure Grouped (b : Batches) : Prop where
  out : ∀ g, .ok g ∈ b.out → g ≠ [] ∧ Uniform g
  state : ∀ st, b.state = some st → Uniform (st.group ++ [st.cur])

theorem grouped_new : Grouped new where
  out := fun _ hg => absurd hg List.not_mem_nil
  state := fun _ hst => nomatch hst

theorem uniform_singleton {pair : Height × Event} (h : IsNewBlock pair) : Uniform [pair] := by
  refine ⟨pair.1, fun q hq => ?_⟩
  rw [List.mem_singleton.mp hq]
  exact Prod.ext rfl h

/-- A pair of the same height joins a uniform group. -/
theorem Uniform.snoc {g : List (Height × Event)} {last pair : Height × Event}
    (hg : Uniform (g ++ [last])) (hpair : IsNewBlock pair) (hsame : sameHeight last pair = true) :
    Uniform (g ++ [last] ++ [pair]) := by
  obtain ⟨h, hall⟩ := hg
  refine ⟨h, fun q hq => ?_⟩
  rcases List.mem_append.mp hq with hq | hq
  · exact hall q hq
  · have hlast : last = (h, .newBlock ⟨h⟩) := hall last (by simp)
    have hheight : last.1 = pair.1 := by simpa [sameHeight] using hsame
    have hh : pair.1 = h := by rw [← hheight, hlast]
    rw [List.mem_singleton.mp hq]
    exact Prod.ext hh (by rw [← hh]; exact hpair)

theorem Uniform.of_subset {g g' : List (Height × Event)} (h : Uniform g) (hsub : g' ⊆ g) :
    Uniform g' := by
  obtain ⟨k, hall⟩ := h
  exact ⟨k, fun pair hpair => hall pair (hsub hpair)⟩

/-- The state part and the output part of `Grouped` through one turn of the generator. -/
theorem tryGroupStep_grouped {state : Option (GroupState (Height × Event))}
    {x : Except MonitorError (Height × Event)} (hx : ∀ pair, x = .ok pair → IsNewBlock pair)
    (hstate : ∀ st, state = some st → Uniform (st.group ++ [st.cur])) :
    (∀ g, .ok g ∈ (tryGroupStep sameHeight state x).2 → g ≠ [] ∧ Uniform g) ∧
    ∀ st, (tryGroupStep sameHeight state x).1 = some st → Uniform (st.group ++ [st.cur]) := by
  cases x with
  | ok pair =>
    have hpair := hx pair rfl
    cases state with
    | none =>
      refine ⟨fun g hg => absurd hg List.not_mem_nil, fun st hst => ?_⟩
      obtain rfl := Option.some.inj hst
      exact uniform_singleton hpair
    | some st =>
      have hst := hstate st rfl
      simp only [tryGroupStep]
      split
      · rename_i hsame
        refine ⟨fun g hg => absurd hg List.not_mem_nil, fun st' hst' => ?_⟩
        obtain rfl := Option.some.inj hst'
        exact hst.snoc hpair hsame
      · refine ⟨fun g hg => ?_, fun st' hst' => ?_⟩
        · obtain rfl : g = st.group ++ [st.cur] := Except.ok.inj (List.mem_singleton.mp hg)
          exact ⟨by simp, hst⟩
        · obtain rfl := Option.some.inj hst'
          exact uniform_singleton hpair
  | error e =>
    cases state with
    | none =>
      refine ⟨fun g hg => ?_, fun st hst => by cases hst⟩
      cases List.mem_singleton.mp hg
    | some st =>
      have hst := hstate st rfl
      refine ⟨fun g hg => ?_, fun st' hst' => by cases hst'⟩
      -- the group without its last element, when there is one, and then that element alone
      rcases List.mem_append.mp hg with hg | hg
      · split at hg
        · exact absurd hg List.not_mem_nil
        · rename_i hne
          obtain rfl : g = st.group := Except.ok.inj (List.mem_singleton.mp hg)
          exact ⟨fun hnil => hne (List.isEmpty_iff.mpr hnil),
            hst.of_subset (List.subset_append_left _ _)⟩
      · rcases List.mem_cons.mp hg with hg | hg
        · obtain rfl : g = [st.cur] := Except.ok.inj hg
          exact ⟨by simp, hst.of_subset (List.subset_append_right _ _)⟩
        · cases List.mem_singleton.mp hg

theorem tryGroupSteps_grouped (items : List (Except MonitorError (Height × Event)))
    (hitems : ∀ pair, .ok pair ∈ items → IsNewBlock pair) :
    ∀ state : Option (GroupState (Height × Event)),
      (∀ st, state = some st → Uniform (st.group ++ [st.cur])) →
      (∀ g, .ok g ∈ (tryGroupSteps sameHeight state items).2 → g ≠ [] ∧ Uniform g) ∧
      ∀ st, (tryGroupSteps sameHeight state items).1 = some st →
        Uniform (st.group ++ [st.cur]) := by
  induction items with
  | nil => exact fun state hstate => ⟨fun g hg => absurd hg List.not_mem_nil, hstate⟩
  | cons x items ih =>
    intro state hstate
    obtain ⟨hout, hnext⟩ := tryGroupStep_grouped (x := x)
      (fun pair hx => hitems pair (by rw [hx]; exact List.mem_cons_self)) hstate
    obtain ⟨hout', hlast⟩ := ih (fun pair hp => hitems pair (List.mem_cons_of_mem x hp)) _ hnext
    refine ⟨fun g hg => ?_, hlast⟩
    rcases List.mem_append.mp hg with hg | hg
    · exact hout g hg
    · exact hout' g hg

theorem Grouped.feed {p : Parsers} {chainId : String} {b b' : Batches}
    {item : Except RpcError RpcEvent} (h : b.Grouped) (hfeed : b.feed p chainId item = some b') :
    b'.Grouped := by
  obtain ⟨items, hitems, rfl⟩ := Option.map_eq_some_iff.mp hfeed
  have hnew : ∀ pair, .ok pair ∈ items → IsNewBlock pair := by
    intro pair hpair
    cases item with
    | error e =>
      obtain rfl := Option.some.inj hitems
      nomatch List.mem_singleton.mp hpair
    | ok event =>
      obtain ⟨vals, hvals, rfl⟩ := Option.map_eq_some_iff.mp hitems
      obtain ⟨v, hv, heq⟩ := List.mem_map.mp hpair
      obtain rfl := Except.ok.inj heq
      exact collectEvents_isNewBlock hvals v hv
  obtain ⟨hout, hstate⟩ := tryGroupSteps_grouped items hnew b.state h.state
  refine ⟨fun g hg => ?_, hstate⟩
  rcases List.mem_append.mp hg with hg | hg
  · exact h.out g hg
  · exact hout g hg

theorem Grouped.finish {b : Batches} (h : b.Grouped) : b.finish.Grouped := by
  refine ⟨fun g hg => ?_, fun st hst => nomatch hst⟩
  rcases List.mem_append.mp hg with hg | hg
  · exact h.out g hg
  · cases hst : b.state with
    | none =>
      rw [hst] at hg
      exact absurd hg List.not_mem_nil
    | some st =>
      rw [hst] at hg
      obtain rfl : g = st.group ++ [st.cur] := Except.ok.inj (List.mem_singleton.mp hg)
      exact ⟨by simp, h.state st hst⟩

theorem Grouped.tail {b : Batches} (h : b.Grouped)
    {x : Except MonitorError (List (Height × Event))}
    {rest : List (Except MonitorError (List (Height × Event)))} (hout : b.out = x :: rest) :
    Grouped { b with out := rest } :=
  ⟨fun g hg => h.out g (by rw [hout]; exact List.mem_cons_of_mem x hg), h.state⟩

end Batches

/-- A group of the generator becomes a batch, and the batch holds exactly the group's pairs in
    their order: sorting one event repeated changes nothing. -/
theorem toBatch_pairs (S : StableSort Event) (chainId : String) {g : List (Height × Event)}
    (hne : g ≠ []) (hg : Batches.Uniform g) :
    ∃ b, toBatch S chainId g = some b ∧ b.pairs = g := by
  obtain ⟨h, hall⟩ := hg
  cases g with
  | nil => exact absurd rfl hne
  | cons pair rest =>
    obtain rfl : pair = (h, .newBlock ⟨h⟩) := hall pair List.mem_cons_self
    have hevents : ∀ e ∈ ((h, Event.newBlock ⟨h⟩) :: rest).map Prod.snd, e = .newBlock ⟨h⟩ := by
      intro e he
      obtain ⟨q, hq, rfl⟩ := List.mem_map.mp he
      rw [hall q hq]
    refine ⟨_, rfl, ?_⟩
    -- all events of the group are equal, so no stable sort can tell them apart
    show (sortEvents S _).map (fun e => (h, e)) = _
    rw [sortEvents, S.sortBy_of_forall_eq compareEvents hevents, List.map_map]
    refine (List.map_congr_left fun q hq => ?_).trans (List.map_id _)
    exact (Prod.ext (by rw [hall q hq]) rfl : (h, q.2) = q)

end OffChainWorker
