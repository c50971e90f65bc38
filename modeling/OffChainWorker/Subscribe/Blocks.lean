/-
  The blocks that arrive at the subscribers.

  Over a finished stream of subscription items, the new-block events in the batches are compared
  with the blocks that the RPC events carry.  The grouping and the sorting lose nothing
  (`streamBatches_pairs`), so a block can only be lost by the extraction, and there it is lost in
  one case: `extract_rpc_event` pushes the event, finds no attribute map, which it needs for a log
  line only, and returns an error, for which `collect_events` puts no events at all.
-/
import Mathlib.Data.List.Basic
import OffChainWorker.Lib.Lists
import OffChainWorker.Subscribe.Batches

namespace OffChainWorker

open Proc

/-! ## The finished stream -/

/-- The batch stream after it has pulled these items, with everything it has yielded since. -/
def Batches.feedAll (p : Parsers) (chainId : String) :
    Batches → List (Except RpcError RpcEvent) → Option Batches
  | b, [] => some b
  | b, item :: rest => (b.feed p chainId item).bind fun b => b.feedAll p chainId rest

/-- The `map_ok` of `stream_batches` on everything that was yielded. -/
def toBatches (S : StableSort Event) (chainId : String) :
    List (Except MonitorError (List (Height × Event))) →
      Option (List (Except MonitorError EventBatch))
  | [] => some []
  | .error e :: out => (toBatches S chainId out).map fun batches => .error e :: batches
  | .ok g :: out =>
    (toBatch S chainId g).bind fun batch =>
      (toBatches S chainId out).map fun batches => .ok batch :: batches

/-- All that `stream_batches` yields on a finished stream; none when something panics. -/
def streamBatches (S : StableSort Event) (p : Parsers) (chainId : String)
    (input : List (Except RpcError RpcEvent)) : Option (List (Except MonitorError EventBatch)) :=
  (Batches.new.feedAll p chainId input).bind fun b => toBatches S chainId b.finish.out

/-- The pairs in the batches, in order. -/
def batchPairs (batches : List (Except MonitorError EventBatch)) : List (Height × Event) :=
  batches.flatMap fun
    | .ok batch => batch.pairs
    | .error _ => []

/-- The height of a new-block event. -/
def eventHeight : Height × Event → Option Height
  | (_, .newBlock block) => some block.height
  | _ => none

/-- The heights of the new-block events in the batches, in order. -/
def deliveredHeights (batches : List (Except MonitorError EventBatch)) : List Height :=
  (batchPairs batches).filterMap eventHeight

/-- The header height of an item that is a `NewBlock` RPC event with a block. -/
def carriedHeight : Except RpcError RpcEvent → Option Height
  | .ok ⟨.newBlock (some block), _⟩ => some block.header.height
  | _ => none

/-- The item has an attribute map, or carries no block. -/
def HasAttributes (item : Except RpcError RpcEvent) : Prop :=
  ∀ event, item = .ok event → (carriedHeight item).isSome → event.events.isSome

/-! ## Through the grouping and the sorting -/

section
variable {p : Parsers} {chainId : String}

theorem collectEvents_some {event : RpcEvent} (h : extractRpcEvent p chainId event ≠ .panic) :
    ∃ vals, collectEvents p chainId event = some vals := by
  unfold collectEvents
  cases hext : extractRpcEvent p chainId event with
  | ok vals => exact ⟨vals, rfl⟩
  | err e => exact ⟨[], rfl⟩
  | panic => exact absurd hext h

/-- When no extraction panics the stream can be pulled to its end. -/
theorem feedAll_some {input : List (Except RpcError RpcEvent)}
    (hpanic : ∀ event, .ok event ∈ input → extractRpcEvent p chainId event ≠ .panic)
    (b : Batches) : ∃ b', b.feedAll p chainId input = some b' := by
  induction input generalizing b with
  | nil => exact ⟨b, rfl⟩
  | cons item rest ih =>
    have hitems : ∃ items, Batches.itemsOf p chainId item = some items := by
      cases item with
      | error e => exact ⟨_, rfl⟩
      | ok event =>
        obtain ⟨vals, hvals⟩ := collectEvents_some (hpanic event List.mem_cons_self)
        exact ⟨vals.map .ok, by rw [Batches.itemsOf, hvals]; rfl⟩
    obtain ⟨items, hitems⟩ := hitems
    rw [Batches.feedAll, Batches.feed, hitems]
    exact ih (fun event he => hpanic event (List.mem_cons_of_mem item he)) _

/-- **Run lemma**: pulling items keeps the groups uniform and appends the items' pairs. -/
theorem feedAll_held {input : List (Except RpcError RpcEvent)} {b b' : Batches}
    (hb : b.Grouped) (h : b.feedAll p chainId input = some b') :
    b'.Grouped ∧ b'.held = b.held ++ input.flatMap (Batches.pairsOf p chainId) := by
  induction input generalizing b with
  | nil =>
    obtain rfl := Option.some.inj h
    exact ⟨hb, (List.append_nil _).symm⟩
  | cons item rest ih =>
    obtain ⟨b₁, hfeed, hrest⟩ := Option.bind_eq_some_iff.mp h
    obtain ⟨hgrouped, hheld⟩ := ih (hb.feed hfeed) hrest
    refine ⟨hgrouped, ?_⟩
    rw [hheld, Batches.feed_held hfeed, List.append_assoc, List.flatMap_cons]

/-- Uniform groups become batches with the same pairs. -/
theorem toBatches_pairs (S : StableSort Event) (chainId : String)
    {out : List (Except MonitorError (List (Height × Event)))}
    (hout : ∀ g, .ok g ∈ out → g ≠ [] ∧ Batches.Uniform g) :
    ∃ batches, toBatches S chainId out = some batches ∧ batchPairs batches = yielded out := by
  induction out with
  | nil => exact ⟨[], rfl, rfl⟩
  | cons x out ih =>
    obtain ⟨batches, hbatches, hpairs⟩ := ih fun g hg => hout g (List.mem_cons_of_mem x hg)
    cases x with
    | error e => exact ⟨.error e :: batches, by rw [toBatches, hbatches]; rfl, hpairs⟩
    | ok g =>
      obtain ⟨hne, huniform⟩ := hout g List.mem_cons_self
      obtain ⟨batch, hbatch, hg⟩ := toBatch_pairs S chainId hne huniform
      refine ⟨.ok batch :: batches, by rw [toBatches, hbatch, hbatches]; rfl, ?_⟩
      show batch.pairs ++ batchPairs batches = g ++ yielded out
      rw [hg, hpairs]

/-- What is yielded on the whole stream is what was extracted from its items. -/
theorem streamBatches_pairs (S : StableSort Event) {input : List (Except RpcError RpcEvent)}
    (hpanic : ∀ event, .ok event ∈ input → extractRpcEvent p chainId event ≠ .panic) :
    ∃ batches, streamBatches S p chainId input = some batches ∧
      batchPairs batches = input.flatMap (Batches.pairsOf p chainId) := by
  obtain ⟨b, hb⟩ := feedAll_some hpanic Batches.new
  obtain ⟨hgrouped, hheld⟩ := feedAll_held Batches.grouped_new hb
  obtain ⟨batches, hbatches, hpairs⟩ := toBatches_pairs S chainId hgrouped.finish.out
  refine ⟨batches, by rw [streamBatches, hb]; exact hbatches, ?_⟩
  -- nothing is pending after the end, so what is held is what is yielded
  have hfinish := b.finish_held
  rw [hheld] at hfinish
  simpa [Batches.held, Batches.new, Batches.finish, pending, yielded, hpairs] using hfinish

end

/-! ## The blocks that are kept -/

/-- The header height of an item that is a `NewBlock` RPC event with a block and a map. -/
def keptHeight : Except RpcError RpcEvent → Option Height
  | .ok ⟨.newBlock (some block), some _⟩ => some block.header.height
  | _ => none

theorem pairsOf_height (p : Parsers) (chainId : String) (item : Except RpcError RpcEvent) :
    (Batches.pairsOf p chainId item).filterMap eventHeight = (keptHeight item).toList := by
  cases item with
  | error e => rfl
  | ok event =>
    obtain ⟨data, events⟩ := event
    cases data with
    | newBlock block => cases block <;> cases events <;> rfl
    | genericJsonEvent => rfl
    | tx =>
      -- a transaction yields no event, whatever its extraction comes to
      have hnil : Batches.pairsOf p chainId (.ok ⟨.tx, events⟩) = [] := by
        show (collectEvents p chainId ⟨.tx, events⟩).getD [] = []
        unfold collectEvents
        cases hext : extractRpcEvent p chainId ⟨.tx, events⟩ with
        | ok vals => exact extractTx_nil hext
        | err e => rfl
        | panic => rfl
      rw [hnil]
      rfl

theorem pairsOf_isNewBlock (p : Parsers) (chainId : String) (item : Except RpcError RpcEvent) :
    ∀ pair ∈ Batches.pairsOf p chainId item, IsNewBlock pair := by
  cases item with
  | error e => exact fun pair hpair => absurd hpair List.not_mem_nil
  | ok event =>
    intro pair hpair
    cases hvals : collectEvents p chainId event with
    | none =>
      rw [Batches.pairsOf, hvals] at hpair
      exact absurd hpair List.not_mem_nil
    | some vals =>
      rw [Batches.pairsOf, hvals] at hpair
      exact collectEvents_isNewBlock hvals pair hpair

theorem keptHeight_or (item : Except RpcError RpcEvent) :
    keptHeight item = none ∨ keptHeight item = carriedHeight item := by
  cases item with
  | error e => exact .inl rfl
  | ok event =>
    obtain ⟨data, events⟩ := event
    cases data with
    | newBlock block =>
      cases block with
      | none => exact .inl rfl
      | some block =>
        cases events with
        | none => exact .inl rfl
        | some map => exact .inr rfl
    | tx => exact .inl rfl
    | genericJsonEvent => exact .inl rfl

/-- A block is kept iff its item has an attribute map. -/
theorem keptHeight_eq_iff (item : Except RpcError RpcEvent) :
    keptHeight item = carriedHeight item ↔ HasAttributes item := by
  cases item with
  | error e => exact ⟨fun _ _ he => (nomatch he), fun _ => rfl⟩
  | ok event =>
    obtain ⟨data, events⟩ := event
    cases data with
    | newBlock block =>
      cases block with
      | none => exact ⟨fun _ _ _ hsome => (nomatch hsome), fun _ => rfl⟩
      | some block =>
        cases events with
        | none => exact ⟨fun h => (nomatch h), fun h => (nomatch h _ rfl rfl)⟩
        | some map =>
          refine ⟨fun _ event he _ => ?_, fun _ => rfl⟩
          rw [← Except.ok.inj he]
          rfl
    | tx => exact ⟨fun _ _ _ hsome => (nomatch hsome), fun _ => rfl⟩
    | genericJsonEvent => exact ⟨fun _ _ _ hsome => (nomatch hsome), fun _ => rfl⟩

/-! ## Headline -/

/-- The new-block events in the batches are the blocks of the input, in order and each once, and
    each lies in a batch of its own height. -/
def BlocksArrive (input : List (Except RpcError RpcEvent))
    (batches : List (Except MonitorError EventBatch)) : Prop :=
  deliveredHeights batches = input.filterMap carriedHeight ∧
    ∀ batch block, .ok batch ∈ batches → .newBlock block ∈ batch.events →
      block.height = batch.height

/-- **Headline.**  When no extraction panics, the batches of the finished stream hold exactly the
    blocks of its items iff every `NewBlock` event that carries a block has its attribute map. -/
theorem blocks_arrive_iff (S : StableSort Event) (p : Parsers) (chainId : String)
    (input : List (Except RpcError RpcEvent))
    (hpanic : ∀ event, .ok event ∈ input → extractRpcEvent p chainId event ≠ .panic) :
    ∃ batches, streamBatches S p chainId input = some batches ∧
      (BlocksArrive input batches ↔ ∀ item ∈ input, HasAttributes item) := by
  obtain ⟨batches, hbatches, hpairs⟩ := streamBatches_pairs S hpanic
  refine ⟨batches, hbatches, ?_⟩
  have hdelivered : deliveredHeights batches = input.filterMap keptHeight := by
    unfold deliveredHeights
    rw [hpairs, List.filterMap_flatMap]
    simp only [pairsOf_height]
    exact (List.filterMap_eq_flatMap_toList keptHeight input).symm
  have hown : ∀ batch block, .ok batch ∈ batches → .newBlock block ∈ batch.events →
      block.height = batch.height := by
    intro batch block hbatch hblock
    have hmem : (batch.height, .newBlock block) ∈ batchPairs batches :=
      List.mem_flatMap.mpr ⟨.ok batch, hbatch, List.mem_map.mpr ⟨_, hblock, rfl⟩⟩
    rw [hpairs] at hmem
    obtain ⟨item, _, hitem⟩ := List.mem_flatMap.mp hmem
    exact congrArg NewBlock.height (Event.newBlock.inj (pairsOf_isNewBlock p chainId item _ hitem))
  constructor
  · rintro ⟨hheights, -⟩ item hitem
    rw [hdelivered] at hheights
    exact (keptHeight_eq_iff item).mp ((filterMap_eq_iff keptHeight_or).mp hheights item hitem)
  · intro hall
    refine ⟨?_, hown⟩
    rw [hdelivered]
    apply (filterMap_eq_iff keptHeight_or).mpr
    intro item hitem
    exact (keptHeight_eq_iff item).mpr (hall item hitem)

/-- Blocks that reach a subscriber: one on two subscriptions, an error, and the next block. -/
def arrivingBlocks : List (Except RpcError RpcEvent) :=
  [.ok ⟨.newBlock (some ⟨⟨5⟩⟩), some fun _ => none⟩, .ok ⟨.newBlock (some ⟨⟨5⟩⟩), some fun _ => none⟩,
    .error ⟨.serverError, none⟩, .ok ⟨.genericJsonEvent, none⟩,
    .ok ⟨.newBlock (some ⟨⟨6⟩⟩), some fun _ => none⟩]

/-- Parsers for a chain without transactions. -/
def noParsers : Parsers := ⟨fun _ => none, fun s => .error s, true⟩

theorem blocks_arrive_twice :
    ∃ batches, streamBatches (.mergeSort Event) noParsers "band" arrivingBlocks = some batches ∧
      (BlocksArrive arrivingBlocks batches ↔ ∀ item ∈ arrivingBlocks, HasAttributes item) := by
  refine blocks_arrive_iff (.mergeSort Event) noParsers "band" arrivingBlocks fun event hevent => ?_
  simp only [arrivingBlocks, List.mem_cons, List.not_mem_nil, or_false] at hevent
  rcases hevent with h | h | h | h | h
  · rw [Except.ok.inj h]; decide
  · rw [Except.ok.inj h]; decide
  · nomatch h
  · rw [Except.ok.inj h]; decide
  · rw [Except.ok.inj h]; decide

/-- A block without an attribute map is in no batch. -/
theorem block_without_attributes_lost :
    ¬ ∀ (S : StableSort Event) (p : Parsers) (chainId : String)
        (input : List (Except RpcError RpcEvent)),
      (∀ event, .ok event ∈ input → extractRpcEvent p chainId event ≠ .panic) →
      ∃ batches, streamBatches S p chainId input = some batches ∧ BlocksArrive input batches := by
  intro h
  obtain ⟨batches, hbatches, harrive⟩ := h (.mergeSort Event) noParsers "band"
    [.ok ⟨.newBlock (some ⟨⟨5⟩⟩), none⟩] (by
      intro event hevent
      rw [Except.ok.inj (List.mem_singleton.mp hevent)]
      decide)
  obtain rfl : [] = batches := Option.some.inj hbatches
  have hheights : ([] : List Height) = [5] := harrive.1
  nomatch hheights

end OffChainWorker
