import LaneBus.Proofs.Paging

/-! # Fetches that fail

A fetch finds out that it was given an address that is not read only when it comes to it.
By then it has taken a page at each address before, and those positions have moved behind
records that are handed out to nobody (`Connection.FailsBehind`).

So a fetch that fails has no effect exactly when there was nothing to read at the addresses
before the first that is not read; then, and only then, the fetches that follow find what
they would have found without it, and a commit covers the records skipped
(`Connection.failed_fetch_kept_iff`).  A fetch on a closed connection never has an effect.
The last statement is a record that is skipped (`Connection.skipped_record`).
-/
namespace LaneBus

/-- Logs grow by what comes in late. -/
theorem Broker.grows_late (b : Broker) (late : List (String × String)) :
    b.Grows (late.foldl (fun b (a, p) => b.append a p) b) := by
  induction late generalizing b with
  | nil => exact .refl b
  | cons arrival more ih => exact (Grows.append ..).trans (ih _)

namespace Connection

variable {c c' : Connection} {b b' : Broker} {now : Timestamp} {addresses : List String}
  {e : TransportError} {positions final : Table String Nat}

/-- The addresses of a list before the first that has no position. -/
def readable (positions : Table String Nat) (addresses : List String) : List String :=
  addresses.takeWhile fun a => (positions.get? a).isSome

/-- Nothing is left to read at some addresses. -/
def CaughtUp (c : Connection) (b : Broker) (addresses : List String) : Prop :=
  ∀ a ∈ addresses, ∀ p, c.positions.get? a = some p → (b.log a).length ≤ p

theorem readable_congr (h : ∀ a, (final.get? a).isSome = (positions.get? a).isSome) :
    readable final addresses = readable positions addresses := by
  rw [readable, readable, funext h]

/-- Positions that nothing was taken from are the same. -/
theorem takeReady_nil (h : takeReady b positions addresses = (.ok [], final)) :
    final = positions := by
  induction addresses generalizing positions with
  | nil =>
    obtain ⟨-, rfl⟩ : True ∧ positions = final := by simpa [takeReady] using h
    rfl
  | cons a rest ih =>
    obtain ⟨start, others, -, hnil, hrest⟩ := takeReady_cons h
    obtain ⟨hready, rfl⟩ := List.append_eq_nil_iff.mp hnil.symm
    rw [hready, List.isEmpty_nil, if_pos rfl] at hrest
    exact ih hrest

/-- **A walk that fails** ends at the first address without a position, after it has gone
through those before. -/
theorem takeReady_error (h : takeReady b positions addresses = (.error e, final)) :
    ∃ a rest skipped, addresses = readable positions addresses ++ a :: rest ∧
      positions.get? a = none ∧ e = .notSubscribed a ∧
      takeReady b positions (readable positions addresses) = (.ok skipped, final) := by
  induction addresses generalizing positions with
  | nil => cases h
  | cons x more ih =>
    unfold takeReady at h
    cases hstart : positions.get? x with
    | none =>
      obtain ⟨rfl, rfl⟩ : .notSubscribed x = e ∧ positions = final := by
        simpa [hstart] using h
      have hreadable : readable positions (x :: more) = [] :=
        List.takeWhile_cons_of_neg (by rw [hstart]; exact Bool.false_ne_true)
      rw [hreadable]
      exact ⟨x, more, [], rfl, hstart, rfl, rfl⟩
    | some start =>
      simp only [hstart] at h
      split at h
      · rename_i moved hrest
        obtain ⟨rfl, rfl⟩ : _ = e ∧ moved = final := by simpa using h
        obtain ⟨a, rest, skipped, hlist, hnone, rfl, htake⟩ := ih hrest
        have hmoved := (Paged.ready b hstart).isSome_eq
        rw [readable_congr hmoved] at hlist htake
        have hreadable : readable positions (x :: more) = x :: readable positions more :=
          List.takeWhile_cons_of_pos (by rw [hstart]; rfl)
        refine ⟨a, rest, b.ready x start ++ skipped, ?_, ?_, rfl, ?_⟩
        · rw [hreadable, List.cons_append, ← hlist]
        · have hsame := hmoved a
          rw [hnone] at hsame
          exact Option.not_isSome_iff_eq_none.mp (by rw [← hsame]; exact Bool.false_ne_true)
        · rw [hreadable]
          simp only [takeReady, hstart, htake]
      · cases h

/-- A walk that goes through finds a position at every address. -/
theorem isSome_of_takeReady {records : List Record}
    (h : takeReady b positions addresses = (.ok records, final)) :
    ∀ a ∈ addresses, (positions.get? a).isSome := by
  induction addresses generalizing positions records with
  | nil => intro a ha; cases ha
  | cons x more ih =>
    obtain ⟨start, others, hstart, -, hrest⟩ := takeReady_cons h
    refine List.forall_mem_cons.mpr ⟨by rw [hstart]; rfl, fun a ha => ?_⟩
    rw [← (Paged.ready b hstart).isSome_eq a]
    exact ih hrest a ha

/-! ## Fetches that fail -/

/-- A fetch fails at an address that is not read, behind some records that it has taken at
the addresses before. -/
structure FailsBehind (c : Connection) (b : Broker) (addresses : List String) (a : String)
    (skipped : List Record) (c' : Connection) : Prop where
  fetches : c.Fetches
  listed : ∃ rest, addresses = readable c.positions addresses ++ a :: rest
  unread : c.positions.get? a = none
  connection : c' = { c with positions := c'.positions }
  paged : Paged b (share (readable c.positions addresses)) c.positions skipped c'.positions
  kept : skipped = [] → c' = c

theorem usable_error {down : Bool} {what : String} (h : c.usable down what = .error e)
    (a : String) : e ≠ .notSubscribed a := by
  unfold usable at h
  rintro rfl
  split at h
  · cases h
  · split at h <;> cases h

/-- **How a fetch fails**: it is refused as a whole, or it comes to an address that is not
read. -/
theorem fetch_error_cases (h : c.fetch b now addresses = (.error e, c', b')) : b' = b ∧
    ((c' = c ∧ ∀ a, e ≠ .notSubscribed a) ∨
      ∃ a skipped, e = .notSubscribed a ∧ c.FailsBehind b addresses a skipped c') := by
  unfold fetch at h
  split at h
  · rename_i refusal hrefused
    obtain ⟨rfl, rfl, rfl⟩ : refusal = e ∧ c = c' ∧ b = b' := by simpa using h
    exact ⟨rfl, .inl ⟨rfl, usable_error hrefused⟩⟩
  · rename_i hfetches
    split at h
    · rename_i reason final hwalk
      obtain ⟨rfl, rfl, rfl⟩ : reason = e ∧ { c with positions := final } = c' ∧ b = b' := by
        simpa using h
      obtain ⟨a, rest, skipped, hlist, hnone, he, htake⟩ := takeReady_error hwalk
      refine ⟨rfl, .inr ⟨a, skipped, he, hfetches, ⟨rest, hlist⟩, hnone, rfl,
        takeReady_paged htake, ?_⟩⟩
      rintro rfl
      rw [takeReady_nil htake]
    · cases h

/-- A fetch that waits goes through when it is not refused and all addresses are read. -/
theorem Fetches.waiting (h : c.Fetches) (b : Broker) (now : Timestamp)
    (htracked : ∀ a ∈ addresses, (c.positions.get? a).isSome) (late : List (String × String)) :
    ∃ records c' b', c.fetchWaiting b now addresses late = (.ok records, c', b') := by
  induction late generalizing c b with
  | nil =>
    obtain ⟨records, positions, fetches, hfetch, -⟩ := h.paged b now htracked
    exact ⟨records, _, _, hfetch⟩
  | cons arrival more ih =>
    obtain ⟨records, positions, fetches, hfetch, hpaged⟩ := h.paged b now htracked
    unfold fetchWaiting
    rw [hfetch]
    cases records with
    | nil =>
      exact ih (c := { c with positions }) h _ fun a ha =>
        (hpaged.isSome_eq a).trans (htracked a ha)
    | cons r page => exact ⟨r :: page, _, _, rfl⟩

/-- A fetch that waits fails at once or not at all. -/
theorem fetchWaiting_error {late : List (String × String)}
    (h : c.fetchWaiting b now addresses late = (.error e, c', b')) :
    c.fetch b now addresses = (.error e, c', b) ∧
      b' = late.foldl (fun b (a, p) => b.append a p) b := by
  cases late with
  | nil =>
    have hfetch : c.fetch b now addresses = (.error e, c', b') := h
    obtain ⟨rfl, -⟩ := fetch_error_cases hfetch
    exact ⟨hfetch, rfl⟩
  | cons arrival more =>
    cases hfetch : c.fetch b now addresses with
    | mk outcome after =>
      obtain ⟨c₁, b₁⟩ := after
      cases outcome with
      | error reason =>
        obtain ⟨rfl, -⟩ := fetch_error_cases hfetch
        unfold fetchWaiting at h
        rw [hfetch] at h
        obtain ⟨rfl, rfl, rfl⟩ : reason = e ∧ c₁ = c' ∧ _ = b' := by simpa using h
        exact ⟨rfl, rfl⟩
      | ok records =>
        -- the first look went through, so the ones after it do as well
        unfold fetch at hfetch
        split at hfetch
        · cases hfetch
        · rename_i hfetches
          split at hfetch
          · cases hfetch
          · rename_i hwalk
            obtain ⟨_, _, _, hok⟩ :=
              Fetches.waiting hfetches b now (isSome_of_takeReady hwalk) (arrival :: more)
            rw [hok] at h
            cases h

/-- A fetch from one address begins with the record at its position. -/
theorem Fetches.first (h : c.Fetches) {x : String} {p : Nat} (hp : c.positions.get? x = some p)
    (b : Broker) (now : Timestamp) : ∃ records, (c.fetch b now [x]).1 = .ok records ∧
      (recordsAt x records)[0]? =
        (b.log x)[p]?.map fun payload => { address := x, offset := p, payload } := by
  have htracked : ∀ a ∈ [x], (c.positions.get? a).isSome := by simp [hp]
  obtain ⟨records, _, _, hfetch, hpaged⟩ := h.paged b now htracked
  refine ⟨records, by rw [hfetch], ?_⟩
  have hpage : 0 < share [x] x := by simp [share, Broker.maxFetch]
  rw [(hpaged.tracked x p hp).1, List.getElem?_take_of_lt hpage, Broker.getElem?_recordsFrom]
  rfl

namespace FailsBehind

variable {a : String} {skipped : List Record}

/-- Where something was left to read before, the position has moved. -/
theorem moved (h : c.FailsBehind b addresses a skipped c') {x : String}
    (hx : x ∈ readable c.positions addresses) {p : Nat} (hp : c.positions.get? x = some p)
    (hlt : p < (b.log x).length) : ∃ q, c'.positions.get? x = some q ∧ p < q := by
  have hshare : share (readable c.positions addresses) x ≠ 0 := fun hzero =>
    share_eq_zero_iff.mp hzero hx
  refine ⟨_, (h.paged.tracked x p hp).2, ?_⟩
  rw [h.paged.length hp]
  omega

/-- Nothing is skipped exactly when nothing was left to read before. -/
theorem eq_iff (h : c.FailsBehind b addresses a skipped c') :
    c' = c ↔ c.CaughtUp b (readable c.positions addresses) := by
  constructor
  · rintro hsame x hx p hp
    refine Nat.le_of_not_lt fun hlt => ?_
    obtain ⟨q, hq, hpq⟩ := h.moved hx hp hlt
    rw [hsame, hp] at hq
    exact Nat.ne_of_lt hpq (Option.some.inj hq)
  · intro hcaught
    refine h.kept (h.paged.eq_nil_iff.mpr fun x p hp => ?_)
    by_cases hx : x ∈ readable c.positions addresses
    · exact .inr (hcaught x hx p hp)
    · exact .inl (share_eq_zero_iff.mpr hx)

/-- **The next fetches** find the same as without the one that failed exactly when nothing
was left to read before. -/
theorem next_iff (h : c.FailsBehind b addresses a skipped c')
    (hgrows : ∀ x, b.log x <+: b'.log x) :
    (∀ later listed, (∀ x ∈ listed, (c.positions.get? x).isSome) →
      (c'.fetch b' later listed).1 = (c.fetch b' later listed).1) ↔
        c.CaughtUp b (readable c.positions addresses) := by
  constructor
  · intro hsame x hx p hp
    refine Nat.le_of_not_lt fun hlt => ?_
    obtain ⟨q, hq, hpq⟩ := h.moved hx hp hlt
    have hfetches : c'.Fetches := by rw [h.connection]; exact h.fetches
    let later : Timestamp := ⟨1970, 1, 1, 0, 0, 0, 0⟩
    obtain ⟨records, hfetch, hfirst⟩ := h.fetches.first hp b' later
    obtain ⟨records', hfetch', hfirst'⟩ := hfetches.first hq b' later
    have hsame := hsame later [x] (by simp [hp])
    rw [hfetch, hfetch', Except.ok.injEq] at hsame
    have hgrown : p < (b'.log x).length := Nat.lt_of_lt_of_le hlt (hgrows x).length_le
    -- the record at the old position would come first, and now a later one does
    rw [hsame, hfirst, List.getElem?_eq_getElem hgrown, Option.map_some] at hfirst'
    obtain ⟨payload, -, hrecord⟩ := Option.map_eq_some_iff.mp hfirst'.symm
    have hoffset : q = p := congrArg Record.offset hrecord
    omega
  · intro hcaught later listed _
    rw [h.eq_iff.mpr hcaught]

/-- A commit covers what has been skipped. -/
theorem committed (h : c.FailsBehind b addresses a skipped c') {b₁ b₂ : Broker}
    (hcommit : c'.commit b₁ = .ok b₂) {x : String} {p : Nat}
    (hp : c.positions.get? x = some p) :
    b₂.committedOffset c.identity.group x = some (p + min ((b.log x).length - p)
      (Broker.maxFetch * (readable c.positions addresses).count x)) := by
  obtain ⟨-, hmoved⟩ := h.paged.tracked x p hp
  have hgroup : c.identity.group = c'.identity.group := by rw [h.connection]
  rw [committedOffset_commit hcommit, if_pos hgroup, hmoved, h.paged.length hp, Nat.min_comm]
  rfl

end FailsBehind

/-- **When a fetch that fails has no effect.**  One that is refused as a whole never has any.
One that comes to an address that is not read leaves the connection as it was exactly when
nothing was left to read at the addresses before, and only then do all fetches that follow
find the same as without it.  Otherwise the positions have moved over what could be read
there, and a commit covers it, though it was handed out to nobody.  Nothing is changed in
the logs, except that what comes in while the fetch waits is appended. -/
theorem failed_fetch_kept_iff {late : List (String × String)}
    (h : c.fetchWaiting b now addresses late = (.error e, c', b')) :
    b' = late.foldl (fun b (a, p) => b.append a p) b ∧
    ((∀ a, e ≠ .notSubscribed a) → c' = c) ∧
    ∀ a, e = .notSubscribed a →
      (c.positions.get? a = none ∧
        ∃ rest, addresses = readable c.positions addresses ++ a :: rest) ∧
      (c' = c ↔ c.CaughtUp b (readable c.positions addresses)) ∧
      ((∀ later listed, (∀ x ∈ listed, (c.positions.get? x).isSome) →
        (c'.fetch b' later listed).1 = (c.fetch b' later listed).1) ↔
          c.CaughtUp b (readable c.positions addresses)) ∧
      ∀ b'', c'.commit b' = .ok b'' → ∀ x p, c.positions.get? x = some p →
        b''.committedOffset c.identity.group x = some (p + min ((b.log x).length - p)
          (Broker.maxFetch * (readable c.positions addresses).count x)) := by
  obtain ⟨hfetch, hlate⟩ := fetchWaiting_error h
  refine ⟨hlate, fun hrefused => ?_, fun a he => ?_⟩
  · obtain ⟨-, ⟨hsame, -⟩ | ⟨a, skipped, he, -⟩⟩ := fetch_error_cases hfetch
    · exact hsame
    · exact absurd he (hrefused a)
  · obtain ⟨-, ⟨-, hrefused⟩ | ⟨other, skipped, hother, hbehind⟩⟩ :=
      fetch_error_cases hfetch
    · exact absurd he (hrefused a)
    · obtain rfl : other = a := TransportError.notSubscribed.inj (hother.symm.trans he)
      have hgrows : b.Grows b' := hlate ▸ Broker.grows_late b late
      exact ⟨⟨hbehind.unread, hbehind.listed⟩, hbehind.eq_iff, hbehind.next_iff hgrows.log,
        fun b'' hcommit x p hp => hbehind.committed hcommit hp⟩

/-- An address that has been read to its end, one that is not read, and one behind it that
has something to read. -/
theorem failed_fetch_kept_at_end :
    let b : Broker := {
      logs := (Table.empty.insert "t-NORMAL" ["r"]).insert "v-NORMAL" ["r", "s"] }
    let c : Connection := {
      identity := { url := "memory://b", group := "g", client := "g-1" }
      positions := (Table.empty.insert "t-NORMAL" 1).insert "v-NORMAL" 0 }
    let fetched := c.fetchWaiting b ⟨2024, 1, 1, 0, 0, 0, 0⟩ ["t-NORMAL", "u-NORMAL", "v-NORMAL"]
      [("t-NORMAL", "late")]
    fetched.1 = .error (.notSubscribed "u-NORMAL") ∧ fetched.2.1 = c := by
  intro b c fetched
  have h : fetched = (.error (.notSubscribed "u-NORMAL"), fetched.2.1, fetched.2.2) := rfl
  obtain ⟨-, -, hmissed⟩ := failed_fetch_kept_iff h
  obtain ⟨-, hsame, -⟩ := hmissed "u-NORMAL" rfl
  refine ⟨rfl, hsame.mpr fun a ha p hp => ?_⟩
  obtain rfl : a = "t-NORMAL" := List.mem_singleton.mp ha
  obtain rfl : 1 = p := Option.some.inj hp
  decide

/-- **A record is skipped.**  A connection reads one address of two, and a fetch from both
fails.  The record at the first is not handed out by the next fetch either, and a commit
covers it. -/
theorem skipped_record :
    let now : Timestamp := ⟨2024, 1, 1, 0, 0, 0, 0⟩
    let b : Broker := ({} : Broker).append "t-NORMAL" "r"
    let identity : Identity := { url := "memory://b", group := "g", client := "g-1" }
    ∃ c c', (Connection.connect identity).bind (·.subscribe b ["t-NORMAL"]) = .ok c ∧
      c.fetch b now ["t-NORMAL", "u-NORMAL"] = (.error (.notSubscribed "u-NORMAL"), c', b) ∧
      c.positions.get? "t-NORMAL" = some 0 ∧ c'.positions.get? "t-NORMAL" = some 1 ∧
      (c.fetch b now ["t-NORMAL"]).1 = .ok [⟨"t-NORMAL", 0, "r"⟩] ∧
      (c'.fetch b now ["t-NORMAL"]).1 = .ok [] ∧
      (c'.commit b).map (·.committedOffset "g" "t-NORMAL") = .ok (some 1) :=
  ⟨_, _, rfl, rfl, rfl, rfl, rfl, rfl, rfl⟩

end Connection
end LaneBus
