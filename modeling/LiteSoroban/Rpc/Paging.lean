import Mathlib.Algebra.GroupWithZero.Nat
import LiteSoroban.Classic.Atomicity
import LiteSoroban.Lib.Paging
import LiteSoroban.Rpc.Facade

/-!
# Paging through the RPC

A client reads the closed ledgers, or the logged events, page by page, and asks
for the next page with the cursor of the last one.  The two readers here are
pagers over the facade's own handlers.

* `ledgerPager` reads the closed ledgers.  Each page is the first part of the
  ledgers that are left (`closedFrom_append`), so a read delivers them all.
* `eventPager` reads the events.  The handler answers from the start ledger and
  from a part of each filter, whatever the cursor, so a read that gets one
  event gets it again with every page (`eventPager_not_reads`).
-/

namespace LiteSoroban

namespace Rpc

/-! ## getLedgers -/

/-- `Number` of the text of an integer: its digits, after a minus sign if it has one. -/
def numberOf (text : String) : Int :=
  match text.toList with
  | '-' :: digits => -(Nat.ofDigitChars 10 digits 0 : Int)
  | digits => Nat.ofDigitChars 10 digits 0

@[simp] theorem numberOf_toString (n : Int) : numberOf (toString n) = n := by
  unfold numberOf
  rw [Int.toString_eq_repr, Int.repr_eq_if]
  by_cases hn : 0 ≤ n
  · rw [if_pos hn, Nat.toList_repr]
    split
    · -- no digit is the sign
      next digits heq =>
      have hsign : '-' ∈ Nat.toDigits 10 n.toNat := heq ▸ List.mem_cons_self
      simpa using Nat.isDigit_of_mem_toDigits (by decide) (by decide) hsign
    · rw [Nat.ofDigitChars_ten_toDigits]
      omega
  · rw [if_neg hn, String.toList_append, Nat.toList_repr]
    show -(Nat.ofDigitChars 10 (Nat.toDigits 10 (-n).toNat) 0 : Int) = n
    rw [Nat.ofDigitChars_ten_toDigits]
    omega

/-- A reader of the closed ledgers: where its next request starts, and how many
it has made. -/
structure LedgerReader where
  startLedger : Int
  asked : Nat

/-- A reader that asks for `limits i` ledgers in its `i`-th request and starts
each request after the cursor of the one before. -/
def ledgerPager (d : Deps) (rpc : Rpc) (limits : Nat → Int) : Pager LedgerReader Int where
  next req :=
    match rpc.getLedgers d (some req.startLedger) (some (limits req.asked)) with
    | .ok (.ledgers sequences _ _ cursor) => some (sequences, ⟨numberOf cursor + 1, req.asked + 1⟩)
    | _ => none

/-- The SDK encodes the header of every closed ledger. -/
def EncodesHeaders (d : Deps) (rpc : Rpc) : Prop :=
  ∀ seq, 1 ≤ seq → seq ≤ rpc.lastClosed → d.encodeHeader seq rpc.ledger.timestamp = .ok ()

/-- The answer to a start that no closed ledger has. -/
def outOfRange (rpc : Rpc) (start : Int) : RpcResponse :=
  .rpcError (-32600)
    s!"start ledger ({start}) must be between the oldest ledger: 1 and the latest ledger: {rpc.lastClosed} for this rpc instance"
    none

/-- How many ledgers a page has. -/
def pageCount (rpc : Rpc) (start limit : Int) : Int :=
  min (min limit 200) (rpc.lastClosed - start + 1)

/-- The ledgers from `start` to `latest`. -/
def closedFrom (start latest : Int) : List Int :=
  (List.range (latest - start + 1).toNat).map fun i : Nat => start + i

theorem closedFrom_append {start latest count : Int} (hcount : 0 ≤ count)
    (hle : count ≤ latest - start + 1) :
    closedFrom start latest =
      closedFrom start (start + count - 1) ++ closedFrom (start + count) latest := by
  unfold closedFrom
  have hsplit : (latest - start + 1).toNat =
      (start + count - 1 - start + 1).toNat + (latest - (start + count) + 1).toNat := by
    omega
  rw [hsplit, List.range_add, List.map_append, List.map_map]
  congr 1
  apply List.map_congr_left
  intro i _
  simp only [Function.comp_apply]
  omega

theorem length_closedFrom (start latest : Int) :
    (closedFrom start latest).length = (latest - start + 1).toNat := by
  simp [closedFrom]

theorem mem_closedFrom {start latest n : Int} :
    n ∈ closedFrom start latest ↔ start ≤ n ∧ n ≤ latest := by
  simp only [closedFrom, List.mem_map, List.mem_range]
  constructor
  · rintro ⟨i, hi, rfl⟩
    omega
  · intro h
    exact ⟨(n - start).toNat, by omega, by omega⟩

section Ledgers

variable {d : Deps} {rpc : Rpc} {start limit : Int}

theorem pageCount_pos (hlimit : 0 < limit) (hstart : start ≤ rpc.lastClosed) :
    0 < rpc.pageCount start limit := by
  unfold pageCount
  omega

/-- The headers of a page encode when those of all closed ledgers do. -/
theorem headers_ok (hheaders : rpc.EncodesHeaders d) {sequences : List Int}
    (h : ∀ seq ∈ sequences, 1 ≤ seq ∧ seq ≤ rpc.lastClosed) :
    sequences.forM (d.encodeHeader · rpc.ledger.timestamp) = .ok () := by
  rw [Except.forM_eq_ok]
  intro seq hmem
  have hseq := h seq hmem
  exact hheaders seq hseq.1 hseq.2

theorem getLedgers_page (hheaders : rpc.EncodesHeaders d) (hone : 1 ≤ start)
    (hstart : start ≤ rpc.lastClosed) :
    rpc.getLedgers d (some start) (some limit) =
      .ok (.ledgers (closedFrom start (start + rpc.pageCount start limit - 1)) rpc.lastClosed
        rpc.ledger.timestamp (toString (start + rpc.pageCount start limit - 1))) := by
  have hrange : ¬ (start < 1 ∨ start > rpc.lastClosed) := by omega
  have hpage : (List.range (rpc.pageCount start limit).toNat).map
      (fun i : Nat => start + (i : Int)) =
        closedFrom start (start + rpc.pageCount start limit - 1) := by
    unfold closedFrom
    rw [show start + rpc.pageCount start limit - 1 - start + 1 = rpc.pageCount start limit by omega]
  have hclosed : ∀ seq ∈ closedFrom start (start + rpc.pageCount start limit - 1),
      1 ≤ seq ∧ seq ≤ rpc.lastClosed := by
    intro seq hseq
    rw [mem_closedFrom] at hseq
    have hle : rpc.pageCount start limit ≤ rpc.lastClosed - start + 1 := min_le_right _ _
    omega
  have hheader := headers_ok hheaders hclosed
  simp only [getLedgers, Option.getD_some, if_neg hrange]
  rw [show min (min limit 200) (rpc.lastClosed - start + 1) = rpc.pageCount start limit from rfl,
    hpage, hheader]
  rfl

theorem getLedgers_past (hstart : rpc.lastClosed < start) :
    rpc.getLedgers d (some start) (some limit) = .ok (rpc.outOfRange start) := by
  have hrange : start < 1 ∨ start > rpc.lastClosed := Or.inr hstart
  simp only [getLedgers, Option.getD_some, if_pos hrange, outOfRange]

/-- A request inside the closed ledgers brings a page and moves past it. -/
theorem ledgerPager_next (hheaders : rpc.EncodesHeaders d) {limits : Nat → Int}
    {req : LedgerReader} (hone : 1 ≤ req.startLedger) (hstart : req.startLedger ≤ rpc.lastClosed) :
    (rpc.ledgerPager d limits).next req =
      some (closedFrom req.startLedger
          (req.startLedger + rpc.pageCount req.startLedger (limits req.asked) - 1),
        ⟨req.startLedger + rpc.pageCount req.startLedger (limits req.asked), req.asked + 1⟩) := by
  simp only [ledgerPager, getLedgers_page hheaders hone hstart, numberOf_toString]
  rw [show req.startLedger + rpc.pageCount req.startLedger (limits req.asked) - 1 + 1 =
    req.startLedger + rpc.pageCount req.startLedger (limits req.asked) by omega]

/-- A request past the closed ledgers ends the read. -/
theorem ledgerPager_past {limits : Nat → Int} {req : LedgerReader}
    (hstart : rpc.lastClosed < req.startLedger) : (rpc.ledgerPager d limits).next req = none := by
  simp only [ledgerPager, getLedgers_past hstart, outOfRange]

/-- Where a reader of the closed ledgers may be: at one of them, or right past
the last. -/
def ReaderInRange (rpc : Rpc) (req : LedgerReader) : Prop :=
  1 ≤ req.startLedger ∧ req.startLedger ≤ rpc.lastClosed + 1

/-- What a request that brings a page says: it was at a closed ledger, the page
has as many ledgers as `pageCount` says, and the reader moved past them. -/
theorem ledgerPager_page (hheaders : rpc.EncodesHeaders d) {limits : Nat → Int}
    (hlimits : ∀ i, 0 < limits i) {req req' : LedgerReader} {xs : List Int}
    (hreq : rpc.ReaderInRange req) (h : (rpc.ledgerPager d limits).next req = some (xs, req')) :
    ∃ count, 0 < count ∧ count ≤ limits req.asked ∧ count ≤ 200 ∧
      count ≤ rpc.lastClosed - req.startLedger + 1 ∧
      xs = closedFrom req.startLedger (req.startLedger + count - 1) ∧
      req' = ⟨req.startLedger + count, req.asked + 1⟩ := by
  by_cases hpast : rpc.lastClosed < req.startLedger
  · rw [ledgerPager_past hpast] at h
    cases h
  · rw [ledgerPager_next hheaders hreq.1 (not_lt.mp hpast)] at h
    cases h
    have hpos : 0 < rpc.pageCount req.startLedger (limits req.asked) :=
      pageCount_pos (hlimits req.asked) (not_lt.mp hpast)
    have hcount : rpc.pageCount req.startLedger (limits req.asked) =
      min (min (limits req.asked) 200) (rpc.lastClosed - req.startLedger + 1) := rfl
    exact ⟨_, hpos, by omega, by omega, by omega, rfl, rfl⟩

/-- The reader stays in range. -/
theorem ReaderInRange.next (hheaders : rpc.EncodesHeaders d) {limits : Nat → Int}
    (hlimits : ∀ i, 0 < limits i) (req : LedgerReader) (xs : List Int) (req' : LedgerReader)
    (hreq : rpc.ReaderInRange req) (h : (rpc.ledgerPager d limits).next req = some (xs, req')) :
    rpc.ReaderInRange req' := by
  obtain ⟨count, hpos, -, -, hle, -, rfl⟩ := ledgerPager_page hheaders hlimits hreq h
  unfold ReaderInRange at hreq ⊢
  constructor
  · show 1 ≤ req.startLedger + count
    omega
  · show req.startLedger + count ≤ rpc.lastClosed + 1
    omega

/-- A read of the closed ledgers comes to its end: fewer are left after every
page. -/
theorem ledgerPager_reads (hheaders : rpc.EncodesHeaders d) {limits : Nat → Int}
    (hlimits : ∀ i, 0 < limits i) {req : LedgerReader} (hreq : rpc.ReaderInRange req) :
    ∃ pages last, (rpc.ledgerPager d limits).Reads req pages last := by
  apply Pager.reads_of_measure (fun req => (rpc.lastClosed + 1 - req.startLedger).toNat)
    (ReaderInRange.next hheaders hlimits) ?_ hreq
  intro req xs req' hreq h
  obtain ⟨count, hpos, -, -, hle, -, rfl⟩ := ledgerPager_page hheaders hlimits hreq h
  show (rpc.lastClosed + 1 - (req.startLedger + count)).toNat <
    (rpc.lastClosed + 1 - req.startLedger).toNat
  omega

section Read

variable {limits : Nat → Int} {req last : LedgerReader} {pages : List (List Int)}

/-- The request that ends a read starts right past the last closed ledger. -/
theorem ledgerPager_last (hheaders : rpc.EncodesHeaders d) (hlimits : ∀ i, 0 < limits i)
    (h : (rpc.ledgerPager d limits).Reads req pages last) (hreq : rpc.ReaderInRange req) :
    last.startLedger = rpc.lastClosed + 1 := by
  have hlast : rpc.ReaderInRange last := h.invariant (ReaderInRange.next hheaders hlimits) hreq
  by_cases hpast : rpc.lastClosed < last.startLedger
  · have hle := hlast.2
    omega
  · have hnext := h.next_last
    rw [ledgerPager_next hheaders hlast.1 (not_lt.mp hpast)] at hnext
    cases hnext

/-- A read lists the closed ledgers from where it starts. -/
theorem ledgerPager_flatten (hheaders : rpc.EncodesHeaders d) (hlimits : ∀ i, 0 < limits i)
    (h : (rpc.ledgerPager d limits).Reads req pages last) (hreq : rpc.ReaderInRange req) :
    pages.flatten = closedFrom req.startLedger rpc.lastClosed := by
  refine Pager.Reads.flatten_eq (fun req => closedFrom req.startLedger rpc.lastClosed)
    (ReaderInRange.next hheaders hlimits) ?_ ?_ h hreq
  · intro req hreq hnone
    have hlast := ledgerPager_last hheaders hlimits (.done hnone) hreq
    show closedFrom req.startLedger rpc.lastClosed = []
    rw [hlast, closedFrom, show rpc.lastClosed - (rpc.lastClosed + 1) + 1 = 0 by omega]
    rfl
  · intro req xs req' hreq h
    obtain ⟨count, hpos, -, -, hle, rfl, rfl⟩ := ledgerPager_page hheaders hlimits hreq h
    exact closedFrom_append hpos.le hle

/-- No page is longer than 200, or than the limit it was asked with. -/
theorem ledgerPager_lengths (hheaders : rpc.EncodesHeaders d) (hlimits : ∀ i, 0 < limits i)
    (h : (rpc.ledgerPager d limits).Reads req pages last) (hreq : rpc.ReaderInRange req)
    (i : Nat) (hi : i < pages.length) :
    pages[i].length ≤ 200 ∧ (pages[i].length : Int) ≤ limits (req.asked + i) := by
  refine Pager.Reads.forall_page LedgerReader.asked
    (fun i page => page.length ≤ 200 ∧ (page.length : Int) ≤ limits i)
    (ReaderInRange.next hheaders hlimits) ?_ ?_ h hreq i hi
  · intro req xs req' hreq h
    obtain ⟨count, -, -, -, -, -, rfl⟩ := ledgerPager_page hheaders hlimits hreq h
    rfl
  · intro req xs req' hreq h
    obtain ⟨count, hpos, hlimit, hmax, -, rfl, -⟩ := ledgerPager_page hheaders hlimits hreq h
    rw [length_closedFrom]
    omega

end Read

/-- Reading the closed ledgers page by page, from any of them and with any
positive limits, ends in the out-of-range error.  The pages together list every
closed ledger from the start to the latest once, in order. -/
theorem getLedgers_pages (d : Deps) (rpc : Rpc) (hheaders : rpc.EncodesHeaders d)
    (limits : Nat → Int) (hlimits : ∀ i, 0 < limits i) (start : Int) (hone : 1 ≤ start)
    (hstart : start ≤ rpc.lastClosed) :
    ∃ pages last, (rpc.ledgerPager d limits).Reads ⟨start, 0⟩ pages last ∧
      rpc.getLedgers d (some last.startLedger) (some (limits last.asked)) =
        .ok (rpc.outOfRange (rpc.lastClosed + 1)) ∧
      pages.flatten = closedFrom start rpc.lastClosed ∧
      ∀ i (hi : i < pages.length),
        pages[i].length ≤ 200 ∧ (pages[i].length : Int) ≤ limits i := by
  have hreq : rpc.ReaderInRange ⟨start, 0⟩ := ⟨hone, by show start ≤ _; omega⟩
  obtain ⟨pages, last, hreads⟩ := ledgerPager_reads hheaders hlimits hreq
  have hlast : last.startLedger = rpc.lastClosed + 1 :=
    ledgerPager_last hheaders hlimits hreads hreq
  refine ⟨pages, last, hreads, ?_, ledgerPager_flatten hheaders hlimits hreads hreq, ?_⟩
  · rw [hlast]
    exact getLedgers_past (by omega)
  · intro i hi
    have hlengths := ledgerPager_lengths hheaders hlimits hreads hreq i hi
    rwa [show (⟨start, 0⟩ : LedgerReader).asked + i = i from Nat.zero_add i] at hlengths

end Ledgers

/-- The last closed ledger is 999; the closed ones are read from 995 in twos. -/
theorem getLedgers_pages_sample :
    ∃ pages last,
      ((attachInProcessRpc emptyLedger {}).ledgerPager .idle fun _ => 2).Reads ⟨995, 0⟩
        pages last ∧
      (attachInProcessRpc emptyLedger {}).getLedgers .idle (some last.startLedger) (some 2) =
        .ok ((attachInProcessRpc emptyLedger {}).outOfRange 1000) ∧
      pages.flatten = [995, 996, 997, 998, 999] ∧
      ∀ i (hi : i < pages.length), pages[i].length ≤ 200 ∧ (pages[i].length : Int) ≤ 2 :=
  getLedgers_pages .idle (attachInProcessRpc emptyLedger {}) (fun _ _ _ => rfl) (fun _ => 2)
    (fun _ => by decide) 995 (by decide) (by decide)

/-! ## getEvents -/

/-- One segment of a topic pattern: `*`, or a value. -/
inductive TopicSegment where
  | any
  | exact (topic : ScVal)
  deriving DecidableEq

def TopicSegment.accepts : TopicSegment → ScVal → Bool
  | .any, _ => true
  | .exact value, topic => value = topic

/-- A pattern has a segment for each topic of the event. -/
def patternAccepts (pattern : List TopicSegment) (topics : List ScVal) : Bool :=
  pattern.length = topics.length && (pattern.zip topics).all fun (s, t) => s.accepts t

/-- A filter as a request carries it.  The handler reads its `EventFilter`. -/
structure EventFilterParams extends EventFilter where
  topics : List (List TopicSegment)

/-- The parameters of `getEvents`. -/
structure GetEventsParams where
  startLedger : Option Int
  endLedger : Option Int
  filters : List EventFilterParams
  cursor : Option String
  limit : Option Int

/-- Whether an event matches a filter in everything the filter names. -/
def EventFilterParams.wants (f : EventFilterParams) (e : BufferedEvent) : Bool :=
  f.toEventFilter.accepts e &&
    (f.topics.isEmpty || f.topics.any fun pattern => patternAccepts pattern e.topic)

/-- Whether a request asks for an event. -/
def GetEventsParams.wants (req : GetEventsParams) (e : BufferedEvent) : Bool :=
  (req.startLedger.getD 0 ≤ e.ledger && req.endLedger.all fun last => (e.ledger : Int) < last) &&
    (req.filters.isEmpty || req.filters.any (EventFilterParams.wants · e))

/-- Whether the handler finds an event: it looks at the start ledger, and at the
type and the contracts of each filter. -/
def GetEventsParams.finds (req : GetEventsParams) (e : BufferedEvent) : Bool :=
  req.startLedger.getD 0 ≤ e.ledger &&
    (req.filters.isEmpty || req.filters.any (EventFilter.accepts ·.toEventFilter e))

/-- The request again, with the cursor it got, and with its start ledger or
without. -/
def GetEventsParams.after (req : GetEventsParams) (keepStart : Bool) (cursor : String) :
    GetEventsParams :=
  { req with
    startLedger := if keepStart then req.startLedger else none
    cursor := some cursor }

/-- What the handler answers a request. -/
def answerEvents (rpc : Rpc) (req : GetEventsParams) : RpcResponse :=
  rpc.getEvents req.startLedger (req.filters.map (·.toEventFilter)) req.limit

/-- A reader of the events: it makes its request again with the cursor it got,
until it gets an empty page. -/
def eventPager (rpc : Rpc) (keepStart : Bool) : Pager GetEventsParams BufferedEvent where
  next req :=
    match rpc.answerEvents req with
    | .events (e :: page) _ _ cursor =>
      some (e :: page, req.after keepStart cursor)
    | _ => none

/-- Reading the events of a request page by page comes to its end and brings
the events the request asks for, in the order of the log. -/
def ReadsEvents (rpc : Rpc) (keepStart : Bool) (req : GetEventsParams) : Prop :=
  ∃ pages last, (rpc.eventPager keepStart).Reads req pages last ∧
    pages.flatten = rpc.eventLog.filter req.wants

section Events

variable {rpc : Rpc} {keepStart : Bool} {req : GetEventsParams}

theorem page_eq_nil {α : Type} {limit : Option Int} (hlimit : ∀ k ∈ limit, 0 < k) {xs : List α} :
    page limit xs = [] ↔ xs = [] := by
  unfold page
  cases limit with
  | none => rfl
  | some k =>
    have hk : 0 < k := hlimit k rfl
    have hzero : k ≠ 0 := hk.ne'
    have htake : k.toNat ≠ 0 := by omega
    simp only [hzero, ↓reduceIte, hk, List.take_eq_nil_iff, htake, false_or]

/-- A page of the handler is a page of the events it finds. -/
theorem answerEvents_eq (rpc : Rpc) (req : GetEventsParams) :
    rpc.answerEvents req = .events (page req.limit (rpc.eventLog.filter req.finds))
      rpc.lastClosed rpc.ledger.timestamp
      (((page req.limit (rpc.eventLog.filter req.finds)).getLast?.map (·.pagingToken)).getD
        "") := by
  have hfinds : (fun e : BufferedEvent => decide (req.startLedger.getD 0 ≤ e.ledger) &&
      ((req.filters.map (·.toEventFilter)).isEmpty ||
        (req.filters.map (·.toEventFilter)).any (EventFilter.accepts · e))) = req.finds := by
    funext e
    simp only [GetEventsParams.finds, List.isEmpty_map, List.any_map, Function.comp_def]
  simp only [answerEvents, getEvents, hfinds]

/-- What the request asks for, the handler finds. -/
theorem finds_of_wants {e : BufferedEvent} (h : req.wants e) : req.finds e := by
  simp only [GetEventsParams.wants, GetEventsParams.finds, EventFilterParams.wants,
    Bool.and_eq_true, Bool.or_eq_true, List.any_eq_true] at h ⊢
  refine ⟨h.1.1, h.2.imp_right ?_⟩
  intro hfilter
  obtain ⟨f, hf, haccepts, -⟩ := hfilter
  exact ⟨f, hf, haccepts⟩

/-- The read is over when the handler finds nothing. -/
theorem eventPager_done (h : ∀ e ∈ rpc.eventLog, ¬ req.finds e) :
    (rpc.eventPager keepStart).next req = none := by
  have heq := answerEvents_eq rpc req
  have hnone : rpc.eventLog.filter req.finds = [] := List.filter_eq_nil_iff.mpr h
  have hpage : page req.limit ([] : List BufferedEvent) = [] := by
    unfold page
    cases req.limit <;> simp
  simp only [eventPager, heq, hnone, hpage]

/-- While the handler finds an event, it brings a page, and finds the event
for the next request. -/
theorem eventPager_again (hlimit : ∀ k ∈ req.limit, 0 < k) {e : BufferedEvent}
    (he : e ∈ rpc.eventLog) (hfinds : req.finds e) :
    ∃ page req', (rpc.eventPager keepStart).next req = some (page, req') ∧
      req'.limit = req.limit ∧ req'.finds e := by
  have heq := answerEvents_eq rpc req
  have hsome : page req.limit (rpc.eventLog.filter req.finds) ≠ [] := by
    rw [Ne, page_eq_nil hlimit, List.filter_eq_nil_iff]
    intro hnone
    exact hnone e he hfinds
  obtain ⟨first, others, hcons⟩ := List.exists_cons_of_ne_nil hsome
  rw [hcons] at heq
  have hnext : (rpc.eventPager keepStart).next req = some (first :: others, req.after keepStart
      (((first :: others).getLast?.map (·.pagingToken)).getD "")) := by
    simp only [eventPager, heq]
  refine ⟨first :: others, _, hnext, rfl, ?_⟩
  simp only [GetEventsParams.finds, GetEventsParams.after, Bool.and_eq_true,
    decide_eq_true_eq] at hfinds ⊢
  refine ⟨?_, hfinds.2⟩
  cases keepStart with
  | true => exact decide_eq_true hfinds.1
  | false => exact decide_eq_true (Int.natCast_nonneg e.ledger)

/-- A read that gets an event gets it again with every request. -/
theorem eventPager_not_reads (hlimit : ∀ k ∈ req.limit, 0 < k) {e : BufferedEvent}
    (he : e ∈ rpc.eventLog) (hfinds : req.finds e) : ¬ rpc.ReadsEvents keepStart req := by
  intro h
  obtain ⟨pages, last, hreads, -⟩ := h
  refine Pager.not_reads_of_invariant
    (fun req => (∀ k ∈ req.limit, 0 < k) ∧ req.finds e) ?_ ⟨hlimit, hfinds⟩ hreads
  intro req hreq
  obtain ⟨page, req', hnext, hlimit', hfinds'⟩ := eventPager_again hreq.1 he hreq.2
  refine ⟨page, req', hnext, ?_, hfinds'⟩
  rw [hlimit']
  exact hreq.1

end Events

/-- Reading the events of a request page by page delivers what the request asks
for exactly when the handler finds no event for it: none from the start ledger
on has a type and a contract that a filter takes. -/
theorem getEvents_pages_iff (rpc : Rpc) (keepStart : Bool) (req : GetEventsParams)
    (hlimit : ∀ k ∈ req.limit, 0 < k) :
    rpc.ReadsEvents keepStart req ↔ ∀ e ∈ rpc.eventLog, ¬ req.finds e := by
  constructor
  · intro h e he hfinds
    exact eventPager_not_reads hlimit he hfinds h
  · intro h
    have hwants : rpc.eventLog.filter req.wants = [] := by
      rw [List.filter_eq_nil_iff]
      intro e he hwants
      exact h e he (finds_of_wants hwants)
    refine ⟨[], req, .done (eventPager_done h), ?_⟩
    rw [hwants]
    rfl

/-- One event in the log, of ledger 1000. -/
def loggedRpc : Rpc :=
  { attachInProcessRpc emptyLedger {} with
    eventLog :=
      [{ type := "contract"
         ledger := 1000
         ledgerClosedAt := "2023-11-14T22:13:20.000Z"
         contractId := ""
         id := "1000-0"
         pagingToken := "1000-0"
         topic := []
         value := ⟨[0, 0, 0, 1]⟩
         txHash := []
         txIndex := 0 }] }

/-- Every event from a ledger on, one at a time. -/
def oneByOne (startLedger : Int) : GetEventsParams where
  startLedger := some startLedger
  endLedger := none
  filters := []
  cursor := none
  limit := some 1

/-- A reader that starts past the event gets nothing, which is right. -/
theorem getEvents_pages_past : loggedRpc.ReadsEvents true (oneByOne 1001) :=
  (getEvents_pages_iff loggedRpc true (oneByOne 1001) (by decide)).mpr (by decide)

/-- A reader that starts at the event reads it for ever. -/
theorem getEvents_replays :
    ¬ loggedRpc.ReadsEvents true (oneByOne 1000) ∧ ¬ loggedRpc.ReadsEvents false (oneByOne 1000) :=
  ⟨eventPager_not_reads (by decide) List.mem_cons_self (by decide),
    eventPager_not_reads (by decide) List.mem_cons_self (by decide)⟩

end Rpc

end LiteSoroban
