import LaneBus.Proofs.Dependence
import LaneBus.Proofs.Supply

/-! # Logs that are read page by page

A fetch takes a page from every address of its list: what comes next in the log, up to a
fixed number of records, and one page more each time the address is listed again.  What
that comes to is a relation between the positions before and after (`Paged`): the records
of an address are a run of its log that begins at the position before, and the position
after is right behind it.

Runs that follow each other make up one run (`Paged.trans`), because what is left of a log
behind a run is what there is from its end on.  So the same relation describes the walk
over a list (`Connection.takeReady_paged`) and fetches that are repeated
(`Connection.Fetches.drain_paged`), and a log is read to its end without a gap or an overlap, however
long it is (`Connection.fetch_pages`).
-/
namespace LaneBus

/-- The records of one address, in their order. -/
def recordsAt (a : String) (records : List Record) : List Record :=
  records.filter fun r => r.address = a

@[simp] theorem recordsAt_nil (a : String) : recordsAt a [] = [] := rfl

@[simp] theorem recordsAt_append (a : String) (rs rs' : List Record) :
    recordsAt a (rs ++ rs') = recordsAt a rs ++ recordsAt a rs' :=
  List.filter_append ..

/-! ## Runs of a log -/

namespace Broker

variable (b : Broker) (a : String) (start : Nat)

/-- The records from an offset on are those of the log, each with its own offset. -/
theorem getElem?_recordsFrom (i : Nat) : (b.recordsFrom a start)[i]? =
    (b.log a)[start + i]?.map fun payload => { address := a, offset := start + i, payload } := by
  simp only [recordsFrom, List.getElem?_map, List.getElem?_zipIdx, List.getElem?_drop,
    Option.map_map]
  rfl

/-- What is behind a run is what there is from its end on. -/
theorem drop_recordsFrom (n : Nat) :
    (b.recordsFrom a start).drop n = b.recordsFrom a (start + n) := by
  refine List.ext_getElem? fun i => ?_
  rw [List.getElem?_drop, getElem?_recordsFrom, getElem?_recordsFrom, Nat.add_assoc]

/-- What is ready is the next page. -/
theorem ready_eq_take : b.ready a start = (b.recordsFrom a start).take maxFetch := by
  refine List.ext_getElem? fun i => ?_
  simp only [ready, recordsFrom, List.getElem?_map, List.getElem?_zipIdx, List.getElem?_take]
  split <;> rfl

theorem recordsAt_ready : recordsAt a (b.ready a start) = b.ready a start :=
  List.filter_eq_self.mpr fun _ hr => decide_eq_true (b.address_of_mem_ready a start hr)

theorem recordsAt_ready_of_ne {other : String} (h : other ≠ a) :
    recordsAt other (b.ready a start) = [] :=
  List.filter_eq_nil_iff.mpr fun r hr => by
    rw [b.address_of_mem_ready a start hr]
    exact fun hsame => h (of_decide_eq_true hsame).symm

end Broker

/-! ## Positions behind pages -/

/-- Positions have moved over the next records of every address, no more of them than its
share, and stand right behind them. -/
structure Paged (b : Broker) (share : String → Nat) (before : Table String Nat)
    (records : List Record) (after : Table String Nat) : Prop where
  tracked : ∀ a p, before.get? a = some p →
    recordsAt a records = (b.recordsFrom a p).take (share a) ∧
      after.get? a = some (p + (recordsAt a records).length)
  untracked : ∀ a, before.get? a = none → recordsAt a records = [] ∧ after.get? a = none

namespace Paged

variable {b : Broker} {share share' : String → Nat} {s t u : Table String Nat}
  {rs rs' : List Record}

theorem refl (b : Broker) (t : Table String Nat) : Paged b (fun _ => 0) t [] t :=
  ⟨fun _ _ h => ⟨rfl, h⟩, fun _ h => ⟨rfl, h⟩⟩

/-- Only the logs count. -/
theorem of_logs {b' : Broker} (h : Paged b' share s rs t) (hlogs : ∀ a, b'.log a = b.log a) :
    Paged b share s rs t where
  tracked a p ha := by
    obtain ⟨hrs, ht⟩ := h.tracked a p ha
    refine ⟨?_, ht⟩
    rw [hrs, Broker.recordsFrom, hlogs]
    rfl
  untracked := h.untracked

/-- A run followed by the next one is one run. -/
theorem trans (h : Paged b share s rs t) (h' : Paged b share' t rs' u) :
    Paged b (fun a => share a + share' a) s (rs ++ rs') u where
  tracked a p ha := by
    obtain ⟨hrs, ht⟩ := h.tracked a p ha
    obtain ⟨hrs', hu⟩ := h'.tracked a _ ht
    have hnext : b.recordsFrom a (p + (recordsAt a rs).length) =
        (b.recordsFrom a p).drop (share a) := by
      rw [hrs, List.length_take, ← b.drop_recordsFrom, ← List.drop_eq_drop_min]
    constructor
    · rw [recordsAt_append, hrs', hnext, hrs, List.take_add]
    · rw [hu, recordsAt_append, List.length_append, Nat.add_assoc]
  untracked a ha := by
    obtain ⟨hrs, ht⟩ := h.untracked a ha
    obtain ⟨hrs', hu⟩ := h'.untracked a ht
    exact ⟨by rw [recordsAt_append, hrs, hrs']; rfl, hu⟩

/-- One page of one address. -/
theorem ready (b : Broker) {a : String} {start : Nat} (h : t.get? a = some start) :
    Paged b (fun x => if a = x then Broker.maxFetch else 0) t (b.ready a start)
      (if (b.ready a start).isEmpty then t
        else t.insert a (start + (b.ready a start).length)) := by
  have hget (x : String) : (if (b.ready a start).isEmpty then t
      else t.insert a (start + (b.ready a start).length)).get? x =
        if a = x then some (start + (b.ready a start).length) else t.get? x := by
    by_cases hnil : b.ready a start = []
    · by_cases hx : a = x
      · subst hx; simp [hnil, h]
      · simp [hnil, hx]
    · have hne : (b.ready a start).isEmpty = false := by simpa using hnil
      rw [hne, if_neg Bool.false_ne_true, Table.get?_insert]
  constructor
  · intro x p hx
    by_cases hax : a = x
    · subst hax
      obtain rfl : start = p := Option.some.inj (h.symm.trans hx)
      rw [hget, if_pos rfl, if_pos rfl, b.recordsAt_ready]
      exact ⟨b.ready_eq_take a start, rfl⟩
    · rw [hget, if_neg hax, if_neg hax, b.recordsAt_ready_of_ne a start (Ne.symm hax)]
      exact ⟨rfl, hx⟩
  · intro x hx
    have hax : a ≠ x := by rintro rfl; rw [h] at hx; cases hx
    rw [hget, if_neg hax, b.recordsAt_ready_of_ne a start (Ne.symm hax)]
    exact ⟨rfl, hx⟩

/-- Addresses neither come nor go. -/
theorem isSome_eq (h : Paged b share s rs t) (a : String) :
    (t.get? a).isSome = (s.get? a).isSome := by
  cases hp : s.get? a with
  | none => rw [(h.untracked a hp).2]
  | some p =>
    rw [(h.tracked a p hp).2]
    rfl

/-- Nothing is taken where the share is nothing. -/
theorem unlisted (h : Paged b share s rs t) {a : String} (ha : share a = 0) :
    recordsAt a rs = [] ∧ t.get? a = s.get? a := by
  cases hp : s.get? a with
  | none => exact h.untracked a hp
  | some p =>
    obtain ⟨hrun, hposition⟩ := h.tracked a p hp
    rw [ha, List.take_zero] at hrun
    rw [hrun] at hposition
    exact ⟨hrun, hposition⟩

/-- A run is as long as its share, or as what there is left to read. -/
theorem length (h : Paged b share s rs t) {a : String} {p : Nat} (ha : s.get? a = some p) :
    (recordsAt a rs).length = min (share a) ((b.log a).length - p) := by
  rw [(h.tracked a p ha).1, List.length_take, Broker.length_recordsFrom]

/-- Where nothing was taken there is nothing left, and a greater share would be empty too. -/
theorem of_nil (h : Paged b share s [] t)
    (hshare : ∀ a, share a = 0 → share' a = 0) : Paged b share' s [] t where
  tracked a p ha := by
    obtain ⟨hnil, ht⟩ := h.tracked a p ha
    refine ⟨?_, ht⟩
    rcases List.take_eq_nil_iff.mp hnil.symm with hzero | hend
    · rw [hshare a hzero]
      rfl
    · rw [hend, List.take_nil]
      rfl
  untracked a ha := h.untracked a ha

/-- Nothing is taken exactly where the share is nothing or the log has ended. -/
theorem eq_nil_iff (h : Paged b share s rs t) : rs = [] ↔
    ∀ a p, s.get? a = some p → share a = 0 ∨ (b.log a).length ≤ p := by
  constructor
  · rintro rfl a p ha
    have hlength : 0 = min (share a) ((b.log a).length - p) := h.length ha
    omega
  · intro hend
    refine List.eq_nil_iff_forall_not_mem.mpr fun r hr => ?_
    have hmem : r ∈ recordsAt r.address rs := List.mem_filter.mpr ⟨hr, decide_eq_true rfl⟩
    cases hp : s.get? r.address with
    | none =>
      rw [(h.untracked _ hp).1] at hmem
      cases hmem
    | some p =>
      have hlength := h.length hp
      have hpos := List.length_pos_of_mem hmem
      have := hend _ p hp
      omega

/-- The pages that come next are empty exactly when everything has been read. -/
theorem next_eq_nil_iff (h : Paged b share s rs t) (h' : Paged b share' t rs' u) : rs' = [] ↔
    ∀ a p, s.get? a = some p → share' a = 0 ∨ recordsAt a rs = b.recordsFrom a p := by
  rw [h'.eq_nil_iff]
  have hall (a : String) (p : Nat) (ha : s.get? a = some p) :
      (b.log a).length ≤ p + (recordsAt a rs).length ↔ recordsAt a rs = b.recordsFrom a p := by
    have hrun : recordsAt a rs <+: b.recordsFrom a p := (h.tracked a p ha).1 ▸ List.take_prefix ..
    have hlength := b.length_recordsFrom a p
    refine ⟨fun hle => hrun.eq_of_length_le (by omega), fun hsame => ?_⟩
    rw [hsame]
    omega
  constructor
  · intro hend a p ha
    exact (hend a _ (h.tracked a p ha).2).imp_right (hall a p ha).mp
  · intro hread a q hq
    cases ha : s.get? a with
    | none => rw [(h.untracked a ha).2] at hq; cases hq
    | some p =>
      obtain rfl : p + (recordsAt a rs).length = q :=
        Option.some.inj ((h.tracked a p ha).2.symm.trans hq)
      exact (hread a p ha).imp_right (hall a p ha).mpr

end Paged

/-! ## Fetches -/

namespace Connection

variable {c : Connection} {b : Broker} {positions final : Table String Nat}
  {addresses : List String} {records : List Record}

/-- The share of an address in a fetch: a page each time it is listed. -/
def share (addresses : List String) (a : String) : Nat := Broker.maxFetch * addresses.count a

theorem share_cons (address : String) (rest : List String) : share (address :: rest) =
    fun a => (if address = a then Broker.maxFetch else 0) + share rest a := by
  funext a
  rw [share, share, List.count_cons, Nat.mul_add, Nat.add_comm]
  by_cases h : address = a <;> simp [h]

theorem share_eq_zero_iff {a : String} : share addresses a = 0 ↔ a ∉ addresses := by
  have hpos : Broker.maxFetch ≠ 0 := by decide
  rw [share, Nat.mul_eq_zero, List.count_eq_zero]
  exact or_iff_right hpos

/-- The walk over a list takes a page at each of its addresses. -/
theorem takeReady_paged (h : takeReady b positions addresses = (.ok records, final)) :
    Paged b (share addresses) positions records final := by
  induction addresses generalizing positions records with
  | nil =>
    obtain ⟨rfl, rfl⟩ : [] = records ∧ positions = final := by simpa [takeReady] using h
    exact .refl b positions
  | cons a rest ih =>
    obtain ⟨start, others, hstart, rfl, hrest⟩ := takeReady_cons h
    rw [share_cons]
    exact (Paged.ready b hstart).trans (ih hrest)

/-- A note about fetched records changes nothing else of a broker. -/
theorem exists_noteFetched (identity : Identity) (now : Timestamp) (b : Broker)
    (records : List Record) :
    ∃ fetches, noteFetched identity now b records = { b with fetches } := by
  induction records generalizing b with
  | nil => exact ⟨b.fetches, rfl⟩
  | cons r rest ih =>
    unfold noteFetched
    split
    · exact ih b
    · obtain ⟨fetches, hnote⟩ := ih _
      exact ⟨fetches, hnote⟩

/-- What a connection finds on a broker does not depend on the notes of fetches. -/
theorem reads_alike (d : Connection) (b : Broker) (fetches : Table String Timestamp)
    (now : Timestamp) (listed : List String) :
    (d.fetch { b with fetches } now listed).1 = (d.fetch b now listed).1 ∧
      (d.fetch { b with fetches } now listed).2.1 = (d.fetch b now listed).2.1 ∧
      d.subscribe { b with fetches } listed = d.subscribe b listed := by
  have hlog (a : String) : ({ b with fetches } : Broker).log a = b.log a := rfl
  have hcommitted (a : String) : ({ b with fetches } : Broker).committedOffset d.identity.group a =
      b.committedOffset d.identity.group a := rfl
  have hready : takeReady { b with fetches } d.positions listed =
      takeReady b d.positions listed := takeReady_congr hlog ..
  have htrack : track { b with fetches } d.identity.group d.positions listed =
      track b d.identity.group d.positions listed := track_congr hcommitted ..
  have hfetch : (d.fetch { b with fetches } now listed).1 = (d.fetch b now listed).1 ∧
      (d.fetch { b with fetches } now listed).2.1 = (d.fetch b now listed).2.1 := by
    unfold fetch
    rw [hready]
    split
    · exact ⟨rfl, rfl⟩
    · split <;> exact ⟨rfl, rfl⟩
  exact ⟨hfetch.1, hfetch.2, by rw [subscribe, htrack]; rfl⟩

/-- The connection is open, and a fetch does not fail for the time being. -/
def Fetches (c : Connection) : Prop := c.usable c.outage.fetch "fetch" = .ok ()

theorem Up.fetches (h : c.Up) : c.Fetches := by
  rw [Fetches, h.outage]
  exact h.usable "fetch"

/-- **A fetch takes a page at each address of its list.** -/
theorem Fetches.paged (h : c.Fetches) (b : Broker) (now : Timestamp)
    (htracked : ∀ a ∈ addresses, (c.positions.get? a).isSome) :
    ∃ records positions fetches,
      c.fetch b now addresses = (.ok records, { c with positions }, { b with fetches }) ∧
        Paged b (share addresses) c.positions records positions := by
  obtain ⟨records, positions, hready⟩ := exists_takeReady (b := b) htracked
  obtain ⟨fetches, hnote⟩ := exists_noteFetched c.identity now b records
  refine ⟨records, positions, fetches, ?_, takeReady_paged hready⟩
  rw [fetch, h]
  simp only [hready, hnote]

/-! ## Fetches that are repeated -/

/-- Fetches once at each of some times, as long as records come. -/
def drain (c : Connection) (b : Broker) (addresses : List String) :
    List Timestamp → Except TransportError (List Record) × Connection × Broker
  | [] => (.ok [], c, b)
  | now :: later =>
    match c.fetch b now addresses with
    | (.error e, c, b) => (.error e, c, b)
    | (.ok [], c, b) => (.ok [], c, b)
    | (.ok (r :: page), c, b) =>
      match drain c b addresses later with
      | (.error e, c, b) => (.error e, c, b)
      | (.ok rest, c, b) => (.ok (r :: page ++ rest), c, b)

/-- The fetches together take a page at each address for every one of them. -/
theorem Fetches.drain_paged (h : c.Fetches) (b : Broker)
    (htracked : ∀ a ∈ addresses, (c.positions.get? a).isSome) (times : List Timestamp) :
    ∃ records positions fetches,
      c.drain b addresses times = (.ok records, { c with positions }, { b with fetches }) ∧
        Paged b (fun a => share addresses a * times.length) c.positions records positions := by
  induction times generalizing c b with
  | nil =>
    refine ⟨[], c.positions, b.fetches, rfl, ?_⟩
    simp only [List.length_nil, Nat.mul_zero]
    exact .refl b c.positions
  | cons now later ih =>
    obtain ⟨page, positions, fetches, hfetch, hpage⟩ := h.paged b now htracked
    rw [Connection.drain, hfetch]
    cases page with
    | nil =>
      -- nothing came, and no number of fetches would bring any more
      refine ⟨[], positions, fetches, rfl, hpage.of_nil fun a hzero => ?_⟩
      rw [hzero, Nat.zero_mul]
    | cons r page =>
      have htracked' : ∀ a ∈ addresses, (positions.get? a).isSome := fun a ha =>
        (hpage.isSome_eq a).trans (htracked a ha)
      obtain ⟨rest, final, fetches', hdrain, hrest⟩ :=
        ih (c := { c with positions }) h { b with fetches } htracked'
      refine ⟨r :: page ++ rest, final, fetches', by simp only [hdrain], ?_⟩
      have hshare : (fun a => share addresses a * (now :: later).length) =
          fun a => share addresses a + share addresses a * later.length := by
        funext a
        rw [List.length_cons, Nat.mul_succ, Nat.add_comm]
      rw [hshare]
      exact hpage.trans (hrest.of_logs fun _ => rfl)

/-- A fetch behind pages comes back empty-handed exactly when everything has been read at the
addresses of its list. -/
theorem Fetches.behind (h : c.Fetches) {share : String → Nat}
    (htracked : ∀ a ∈ addresses, (c.positions.get? a).isSome)
    (hpaged : Paged b share c.positions records positions) (fetches : Table String Timestamp)
    (now : Timestamp) :
    (({ c with positions } : Connection).fetch { b with fetches } now addresses).1 = .ok [] ↔
      ∀ a ∈ addresses, ∀ p, c.positions.get? a = some p →
        recordsAt a records = b.recordsFrom a p := by
  have hfetches : ({ c with positions } : Connection).Fetches := h
  obtain ⟨page, _, _, hfetch, hpage⟩ :=
    hfetches.paged { b with fetches } now fun a ha =>
      (hpaged.isSome_eq a).trans (htracked a ha)
  rw [hfetch, Except.ok.injEq, hpaged.next_eq_nil_iff (hpage.of_logs fun _ => rfl)]
  constructor
  · intro hread a ha p hp
    exact (hread a p hp).resolve_left fun hzero => share_eq_zero_iff.mp hzero ha
  · intro hread a p hp
    by_cases ha : a ∈ addresses
    · exact .inr (hread a ha p hp)
    · exact .inl (share_eq_zero_iff.mpr ha)

/-- A fetch after a position has been moved begins there. -/
theorem Up.fetch_moved (h : c.Up) (b : Broker) (now : Timestamp)
    (htracked : ∀ a ∈ addresses, (c.positions.get? a).isSome) {a : String}
    (ha : (c.positions.get? a).isSome) (k : Nat) :
    c.seek a k = .ok { c with positions := c.positions.insert a k } ∧
      ∃ records c' b',
        ({ c with positions := c.positions.insert a k } : Connection).fetch b now addresses =
          (.ok records, c', b') ∧
        recordsAt a records = (b.recordsFrom a k).take (share addresses a) := by
  have hup : ({ c with positions := c.positions.insert a k } : Connection).Up :=
    ⟨h.opened, h.outage⟩
  have htracked' : ∀ x ∈ addresses, ((c.positions.insert a k).get? x).isSome := fun x hx => by
    rw [Table.get?_insert]
    split
    · rfl
    · exact htracked x hx
  obtain ⟨p, hp⟩ := Option.isSome_iff_exists.mp ha
  obtain ⟨records, _, _, hfetch, hpaged⟩ := hup.fetches.paged b now htracked'
  exact ⟨by simp only [Connection.seek, h.outage, h.usable, hp],
    records, _, _, hfetch, (hpaged.tracked a k (Table.get?_insert_self ..)).1⟩

/-- **Logs are read page by page, without a gap or an overlap.**  A fetch over any list of
addresses that a connection reads hands out, of each address, the run of its log that
begins at the position and is as long as what there is left to read, or as a page for each
time the address is listed if that is less, and leaves the position right behind the run.
It changes nothing else: no other position, no log, no commit, and nothing that other
connections find.

Fetches that are repeated hand out one such run together.  The next one comes back
empty-handed exactly when all that was left to read at the listed addresses has been
handed out, and it does so after as many of them as there are pages.  Once a position has
been moved, the run begins where it was moved to. -/
theorem fetch_pages (c : Connection) (b : Broker) (addresses : List String) (hup : c.Up)
    (htracked : ∀ a ∈ addresses, (c.positions.get? a).isSome) :
    (∀ now, ∃ records positions fetches,
      c.fetch b now addresses = (.ok records, { c with positions }, { b with fetches }) ∧
      (∀ a p, c.positions.get? a = some p →
        recordsAt a records =
          (b.recordsFrom a p).take (Broker.maxFetch * addresses.count a) ∧
        (recordsAt a records).length =
          min ((b.log a).length - p) (Broker.maxFetch * addresses.count a) ∧
        positions.get? a = some (p + (recordsAt a records).length)) ∧
      (∀ a ∉ addresses, recordsAt a records = [] ∧ positions.get? a = c.positions.get? a) ∧
      ∀ (other : Connection) later listed,
        (other.fetch { b with fetches } later listed).1 = (other.fetch b later listed).1 ∧
        (other.fetch { b with fetches } later listed).2.1 = (other.fetch b later listed).2.1 ∧
        other.subscribe { b with fetches } listed = other.subscribe b listed) ∧
    (∀ times : List Timestamp, ∃ records positions fetches,
      c.drain b addresses times = (.ok records, { c with positions }, { b with fetches }) ∧
      (∀ a ∉ addresses, recordsAt a records = [] ∧ positions.get? a = c.positions.get? a) ∧
      (∀ now, (({ c with positions } : Connection).fetch { b with fetches } now addresses).1 =
          .ok [] ↔
        ∀ a ∈ addresses, ∀ p, c.positions.get? a = some p →
          recordsAt a records = b.recordsFrom a p) ∧
      ((∀ a ∈ addresses, ∀ p, c.positions.get? a = some p →
          (b.log a).length ≤ p + Broker.maxFetch * addresses.count a * times.length) →
        ∀ a ∈ addresses, ∀ p, c.positions.get? a = some p →
          recordsAt a records = b.recordsFrom a p)) ∧
    ∀ a k now, (c.positions.get? a).isSome →
      c.seek a k = .ok { c with positions := c.positions.insert a k } ∧
      ∃ records c' b',
        ({ c with positions := c.positions.insert a k } : Connection).fetch b now addresses =
          (.ok records, c', b') ∧
        recordsAt a records =
          (b.recordsFrom a k).take (Broker.maxFetch * addresses.count a) := by
  refine ⟨fun now => ?_, fun times => ?_, fun a k now ha => hup.fetch_moved b now htracked ha k⟩
  · obtain ⟨records, positions, fetches, hfetch, hpaged⟩ := hup.fetches.paged b now htracked
    refine ⟨records, positions, fetches, hfetch, fun a p hp => ?_,
      fun a ha => hpaged.unlisted (share_eq_zero_iff.mpr ha),
      fun other later listed => other.reads_alike b fetches later listed⟩
    obtain ⟨hrun, hposition⟩ := hpaged.tracked a p hp
    exact ⟨hrun, by rw [hpaged.length hp, Nat.min_comm, share], hposition⟩
  · obtain ⟨records, positions, fetches, hdrain, hpaged⟩ := hup.fetches.drain_paged b htracked times
    refine ⟨records, positions, fetches, hdrain, fun a ha => hpaged.unlisted ?_,
      fun now => hup.fetches.behind htracked hpaged fetches now, fun hpages a ha p hp => ?_⟩
    · rw [share_eq_zero_iff.mpr ha, Nat.zero_mul]
    have hle := hpages a ha p hp
    rw [(hpaged.tracked a p hp).1]
    refine List.take_of_length_le ?_
    rw [Broker.length_recordsFrom, share]
    omega

/-- A log of more than two pages, listed twice beside one that is empty. -/
theorem fetch_pages_listed_twice :
    let b : Broker := { logs := Table.empty.insert "t-NORMAL" (List.replicate 1203 "r") }
    let c : Connection := {
      identity := { url := "memory://b", group := "g", client := "g-1" }
      positions := (Table.empty.insert "t-NORMAL" 3).insert "u-NORMAL" 0 }
    let addresses := ["t-NORMAL", "u-NORMAL", "t-NORMAL"]
    let now : Timestamp := ⟨2024, 1, 1, 0, 0, 0, 0⟩
    c.Up ∧ (∀ a ∈ addresses, (c.positions.get? a).isSome) ∧
      (∃ records c' b', c.fetch b now addresses = (.ok records, c', b') ∧
        (recordsAt "t-NORMAL" records).length = 1000 ∧
        c'.positions.get? "t-NORMAL" = some 1003) ∧
      ∃ records c' b', c.drain b addresses [now, now] = (.ok records, c', b') ∧
        recordsAt "t-NORMAL" records = b.recordsFrom "t-NORMAL" 3 ∧
        recordsAt "u-NORMAL" records = [] := by
  intro b c addresses now
  have hup : c.Up := ⟨rfl, rfl⟩
  have htracked : ∀ a ∈ addresses, (c.positions.get? a).isSome := by decide
  have hlength : (b.log "t-NORMAL").length = 1203 := List.length_replicate
  obtain ⟨hfetch, hdrain, -⟩ := fetch_pages c b addresses hup htracked
  refine ⟨hup, htracked, ?_, ?_⟩
  · obtain ⟨records, positions, fetches, hfetch, hrun, -, -⟩ := hfetch now
    obtain ⟨-, hcount, hposition⟩ := hrun "t-NORMAL" 3 rfl
    have hthousand : (recordsAt "t-NORMAL" records).length = 1000 := by
      rw [hcount, hlength]
      rfl
    exact ⟨records, _, _, hfetch, hthousand, by rw [hposition, hthousand]⟩
  · obtain ⟨records, positions, fetches, hdrain, -, -, hread⟩ := hdrain [now, now]
    have hall := hread fun a ha p _ => by
      have hpages : Broker.maxFetch * addresses.count "t-NORMAL" * [now, now].length = 2000 := rfl
      obtain rfl | rfl : a = "t-NORMAL" ∨ a = "u-NORMAL" := by
        simpa [addresses, or_comm] using ha
      · omega
      · exact Nat.zero_le _
    exact ⟨records, _, _, hdrain, hall "t-NORMAL" (by decide) 3 rfl,
      hall "u-NORMAL" (by decide) 0 rfl⟩

end Connection
end LaneBus
