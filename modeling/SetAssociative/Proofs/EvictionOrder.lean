import Mathlib.Data.List.Pairwise
import SetAssociative.Proofs.StampOrder

/-! Which line gives way to another is decided by the history of the run alone. Under two
disciplines it is the open line whose latest use is the earliest or the last in the run,
under the third the one whose latest fill is the earliest. The ranking by stamps follows
the ranking by these dates through every operation. -/
namespace SetAssociative

/-- The position of the last member of a list that has a property. -/
def lastIdx? {α : Type} (p : α → Bool) : List α → Option Nat
  | [] => none
  | x :: xs =>
    match lastIdx? p xs with
    | some i => some (i + 1)
    | none => if p x then some 0 else none

theorem lastIdx?_concat {α : Type} (p : α → Bool) (xs : List α) (x : α) :
    lastIdx? p (xs ++ [x]) = if p x then some xs.length else lastIdx? p xs := by
  induction xs with
  | nil => rfl
  | cons y xs ih =>
    rw [List.cons_append, lastIdx?, ih, lastIdx?]
    by_cases last : p x = true
    · simp only [last, ↓reduceIte, List.length_cons]
    · simp only [last, Bool.false_eq_true, ↓reduceIte]

/-- Two members of a list that is ordered pairwise are related one way or the other. -/
theorem rel_or_rel_of_pairwise {α : Type} {R : α → α → Prop} {xs : List α} {x y : α}
    (ordered : xs.Pairwise R) (first : x ∈ xs) (second : y ∈ xs) (apart : x ≠ y) :
    R x y ∨ R y x := by
  have either : xs.Pairwise fun x y => R x y ∨ R y x := ordered.imp .inl
  have : Std.Symm fun x y => R x y ∨ R y x := ⟨fun _ _ => Or.symm⟩
  exact either.forall first second apart

/-- How a reply used the line that was asked for, if it did. -/
def Reply.use? : Reply → Option Use
  | .placed (.ok p) => some (if p.hit then .hit else .fill)
  | _ => none

namespace Cache

/-- What a run has brought so far: each operation with its answer. -/
abbrev History := List (Op × Answer)

/-- The operations of a run with their answers. -/
def history (c : Cache) (ops : List Op) : History := ops.zip (c.run ops).1

/-- Whether an operation used the line of a set and a tag with success, in one of the ways
that count. -/
def usesLine (locate : UInt64 → Nat × Nat) (counts : Use → Bool) (key : Nat × Nat) :
    Op × Answer → Bool
  | (.access address _, .accessed (.ok a)) =>
    locate address == key && counts (if a.hit then .hit else .fill)
  | _ => false

/-- When a line was last used in one of the ways that count. -/
def History.lastUse? (events : History) (locate : UInt64 → Nat × Nat) (counts : Use → Bool)
    (key : Nat × Nat) : Option Nat :=
  lastIdx? (usesLine locate counts key) events

end Cache

/-- One of some tags whose date comes before the dates of all of them. -/
def Foremost (before : Nat → Nat → Prop) (date : Nat → Option Nat) (among : Nat → Prop)
    (tag : Nat) : Prop :=
  among tag ∧ ∃ i, date tag = some i ∧
    ∀ other, among other → ∃ j, date other = some j ∧ before i j

/-- A tag that is foremost and shares its date with no other is alone in being so. -/
theorem foremost_iff {before : Nat → Nat → Prop} {date : Nat → Option Nat} {among : Nat → Prop}
    {best : Nat} (antisymm : ∀ {i j}, before i j → before j i → i = j) (member : among best)
    (first : ∀ other, among other →
      ∃ i j, date best = some i ∧ date other = some j ∧ before i j ∧ (i = j → best = other))
    (tag : Nat) : Foremost before date among tag ↔ tag = best := by
  constructor
  · rintro ⟨also, i, dated, foremost⟩
    obtain ⟨j, found, sooner⟩ := foremost best member
    obtain ⟨j', i', found', dated', sooner', alone⟩ := first tag also
    rw [found] at found'
    rw [dated] at dated'
    cases found'
    cases dated'
    exact (alone (antisymm sooner' sooner)).symm
  · rintro rfl
    obtain ⟨i, -, dated, -⟩ := first tag member
    refine ⟨member, i, dated, fun other also => ?_⟩
    obtain ⟨i', j, dated', found, sooner, -⟩ := first other also
    rw [dated] at dated'
    cases dated'
    exact ⟨j, found, sooner⟩

/-- The dates of a ranking fall: each of its members has one, and that of a member is later
than those of all members after it. -/
structure Chronicle (date : Nat → Option Nat) (now : Nat) (order : List Nat) : Prop where
  dated : ∀ tag ∈ order, ∃ i < now, date tag = some i
  descending : order.Pairwise fun newer older =>
    ∀ i j, date older = some i → date newer = some j → i < j

section
variable {date later : Nat → Option Nat} {now tag other i j : Nat} {order rest : List Nat}

theorem Chronicle.sublist (chronicle : Chronicle date now order) (included : rest.Sublist order) :
    Chronicle date now rest where
  dated tag member := chronicle.dated tag (included.subset member)
  descending := chronicle.descending.sublist included

/-- Time passes without a change to the dates. -/
theorem Chronicle.wait (chronicle : Chronicle date now order)
    (same : ∀ tag ∈ order, later tag = date tag) : Chronicle later (now + 1) order where
  dated := by
    intro tag member
    obtain ⟨i, before, found⟩ := chronicle.dated tag member
    exact ⟨i, Nat.lt_succ_of_lt before, (same tag member).trans found⟩
  descending := by
    refine chronicle.descending.imp_of_mem fun newer older falls i j first second => ?_
    exact falls i j ((same _ older).symm.trans first) ((same _ newer).symm.trans second)

/-- What is dated now comes before everything else. -/
theorem Chronicle.front (chronicle : Chronicle date now rest) (dated : later tag = some now)
    (same : ∀ other ∈ rest, later other = date other) :
    Chronicle later (now + 1) (tag :: rest) := by
  have waited := chronicle.wait same
  constructor
  · intro other member
    rcases List.mem_cons.mp member with rfl | member
    · exact ⟨now, Nat.lt_succ_self now, dated⟩
    · exact waited.dated other member
  · refine List.pairwise_cons.mpr ⟨?_, waited.descending⟩
    intro other member i j first second
    obtain ⟨k, before, found⟩ := chronicle.dated other member
    rw [same other member, found] at first
    rw [dated] at second
    cases first
    cases second
    exact before

end

namespace CacheSet
variable {s : CacheSet} {kind : Kind} {date later : Nat → Option Nat} {now tag : Nat}
  {order : List Nat} {reply : Reply}

/-- A use that is stamped brings its line to the front. Whatever else happens to a ranking
only strikes out members. -/
theorem rerank_cases (stamped : kind.stampsOn .fill = true) (order : List Nat) (tag : Nat)
    (reply : Reply) :
    (reply.use?.any kind.stampsOn = true ∧
      ∃ rest, rest.Sublist order ∧ rerank kind order tag reply = tag :: rest) ∨
    (reply.use?.any kind.stampsOn = false ∧ (rerank kind order tag reply).Sublist order) := by
  cases reply with
  | found => exact .inr ⟨rfl, List.Sublist.refl _⟩
  | removed => exact .inr ⟨rfl, List.erase_sublist⟩
  | placed result =>
    cases result with
    | error => exact .inr ⟨rfl, List.Sublist.refl _⟩
    | ok p =>
      obtain ⟨hit, way, evicted⟩ := p
      cases hit with
      | true =>
        cases promoted : kind.stampsOn .hit with
        | true =>
          refine .inl ⟨promoted, order.erase tag, List.erase_sublist, ?_⟩
          simp only [rerank, promoted, ↓reduceIte]
        | false =>
          refine .inr ⟨promoted, ?_⟩
          simp only [rerank, promoted, ↓reduceIte, Bool.false_eq_true]
          exact List.Sublist.refl _
      | false =>
        cases evicted with
        | some line => exact .inl ⟨stamped, order.erase line.tag, List.erase_sublist, rfl⟩
        | none => exact .inl ⟨stamped, order, List.Sublist.refl _, rfl⟩

/-- The dates of a ranking still fall after a request, if the request dates the line that it
used and no other. -/
theorem rerank_chronicle (chronicle : Chronicle date now order)
    (stamped : kind.stampsOn .fill = true) (nodup : (rerank kind order tag reply).Nodup)
    (dates : ∀ other, later other =
      if tag = other ∧ reply.use?.any kind.stampsOn = true then some now else date other) :
    Chronicle later (now + 1) (CacheSet.rerank kind order tag reply) := by
  rcases rerank_cases stamped order tag reply with ⟨used, rest, included, front⟩ | ⟨unused, kept⟩
  · rw [front] at nodup ⊢
    refine (chronicle.sublist included).front ((dates tag).trans (if_pos ⟨rfl, used⟩)) ?_
    intro other member
    refine (dates other).trans (if_neg fun here => ?_)
    exact (List.nodup_cons.mp nodup).1 (here.1 ▸ member)
  · refine (chronicle.sublist kept).wait fun other _ => (dates other).trans (if_neg ?_)
    rw [unused]
    exact fun here => Bool.noConfusion here.2

/-- A line that the set may give up: it is held and not pinned. -/
def Offers (s : CacheSet) (tag : Nat) : Prop := ∃ line, s.Holds tag line ∧ line.pinned = false

theorem Offers.member (offers : s.Offers tag) (tidy : s.Tidy) (ranked : s.Ranked order) :
    tag ∈ order :=
  (ranked.mem_iff_holds tidy).mpr (offers.imp fun _ => And.left)

/-- The earlier stamp belongs to the earlier date. -/
theorem Ranked.date_le (ranked : s.Ranked order) (chronicle : Chronicle date now order)
    {first second : Nat} (before : first ∈ order) (after : second ∈ order)
    (stamps : s.stamp first ≤ s.stamp second) :
    ∃ i j, date first = some i ∧ date second = some j ∧ i ≤ j ∧ (i = j → first = second) := by
  obtain ⟨i, -, dated⟩ := chronicle.dated first before
  obtain ⟨j, -, also⟩ := chronicle.dated second after
  refine ⟨i, j, dated, also, ?_⟩
  by_cases same : first = second
  · subst same
    rw [dated] at also
    cases also
    exact ⟨Nat.le_refl i, fun _ => rfl⟩
  · rcases rel_or_rel_of_pairwise (ranked.descending.and chronicle.descending) before after same
      with ⟨later, -⟩ | ⟨-, falls⟩
    · exact absurd later (Nat.not_lt.mpr stamps)
    · have less := falls i j dated also
      exact ⟨Nat.le_of_lt less, fun equal => absurd equal (Nat.ne_of_lt less)⟩

end CacheSet

namespace Cache
variable {c start : Cache} {config : Config} {kind : Kind} {events : History}
  {locate : UInt64 → Nat × Nat} {counts : Use → Bool} {key : Nat × Nat} {op : Op} {index : Nat}
  {s : CacheSet}

/-- An operation on an address uses the line of that address if the reply says so, and no
other line. -/
theorem usesLine_of_request? {address : UInt64} {request : Request}
    (asked : op.request? = some (address, request)) :
    usesLine c.locate counts key (op, (c.step op).1) =
      (c.locate address == key && (c.response address request).reply.use?.any counts) := by
  rw [step_of_request? asked]
  cases op with
  | access target write =>
    cases asked
    simp only [response, CacheSet.serve, Reply.answer]
    cases ((c.setOf address).access (c.locate address).2 write).result with
    | error cause => simp [Except.map, usesLine, Reply.use?]
    | ok p => rfl
  | pin target | unpin target =>
    cases asked
    simp only [response, CacheSet.serve]
    split <;> simp [usesLine, Reply.use?]
  | invalidate target =>
    cases asked
    simp only [response, CacheSet.serve]
    split <;> simp [usesLine, Reply.use?]
  | flush | resetStats => cases asked

/-- What one more event dates. -/
theorem lastUse?_concat (event : Op × Answer) :
    History.lastUse? (events ++ [event]) locate counts key =
      if usesLine locate counts key event then some events.length
      else events.lastUse? locate counts key :=
  lastIdx?_concat ..

/-- The lines of a set are ranked as the uses are dated that the discipline stamps. -/
structure Dated (locate : UInt64 → Nat × Nat) (kind : Kind) (events : History) (index : Nat)
    (s : CacheSet) : Prop where
  sound : s.Sound
  kind_eq : s.policy.kind = kind
  ranked : ∃ order, s.Ranked order ∧
    Chronicle (fun tag => events.lastUse? locate kind.stampsOn (index, tag)) events.length order

/-- An operation leaves a set aside. -/
theorem Dated.aside (dated : Dated c.locate kind events index s) {event : Op × Answer}
    (unused : ∀ tag, usesLine c.locate kind.stampsOn (index, tag) event = false) :
    Dated c.locate kind (events ++ [event]) index s := by
  obtain ⟨order, ranked, chronicle⟩ := dated.ranked
  refine ⟨dated.sound, dated.kind_eq, order, ranked, ?_⟩
  rw [List.length_append, List.length_singleton]
  refine chronicle.wait fun tag _ => ?_
  rw [lastUse?_concat, unused tag]
  rfl

theorem Dated.serve {address : UInt64} {request : Request}
    (dated : Dated c.locate kind events (c.locate address).1 (c.setOf address))
    (stamped : kind.stampsOn .fill = true) (asked : op.request? = some (address, request)) :
    Dated c.locate kind (events ++ [(op, (c.step op).1)]) (c.locate address).1
      (c.response address request).set := by
  obtain ⟨order, ranked, chronicle⟩ := dated.ranked
  have after := ranked.serve dated.sound (dated.kind_eq.symm ▸ stamped) (c.locate address).2 request
  rw [dated.kind_eq] at after
  refine ⟨dated.sound.serve _ _, (CacheSet.kind_serve ..).trans dated.kind_eq, _, after, ?_⟩
  rw [List.length_append, List.length_singleton]
  refine CacheSet.rerank_chronicle chronicle stamped after.nodup fun other => ?_
  rw [lastUse?_concat, usesLine_of_request? asked]
  refine ite_congr (propext ?_) (fun _ => rfl) fun _ => rfl
  rw [Bool.and_eq_true, beq_iff_eq]
  exact and_congr_left fun _ => ⟨fun same => congrArg Prod.snd same, fun same => Prod.ext rfl same⟩

theorem Dated.flush (dated : Dated c.locate kind events index s)
    {event : Op × Answer}
    (unused : ∀ tag, usesLine c.locate kind.stampsOn (index, tag) event = false) :
    Dated c.locate kind (events ++ [event]) index s.flush.2 := by
  obtain ⟨order, ranked, chronicle⟩ := dated.ranked
  have before : Dated c.locate kind events index s.flush.2 :=
    ⟨dated.sound.flush, (congrArg Build.kind (CacheSet.build_flush s)).trans dated.kind_eq, _,
      ranked.flush dated.sound.tidy, chronicle.sublist List.filter_sublist⟩
  exact before.aside unused

theorem dated_step (everywhere : c.Everywhere (Dated c.locate kind events))
    (stamped : kind.stampsOn .fill = true) (op : Op) :
    (c.step op).2.Everywhere (Dated c.locate kind (events ++ [(op, (c.step op).1)])) := by
  intro index s there
  rcases op.request?_or with ⟨address, request, asked⟩ | rfl | rfl
  · rw [step_of_request? asked, getElem?_sets_update] at there
    split at there
    · rename_i here
      cases there
      subst here
      exact (Everywhere.setOf everywhere address).serve stamped asked
    · rename_i elsewhere
      refine (everywhere index s there).aside fun tag => ?_
      have apart : (c.locate address == (index, tag)) = false :=
        beq_eq_false_iff_ne.mpr fun same => elsewhere (congrArg Prod.fst same).symm
      rw [usesLine_of_request? asked, apart, Bool.false_and]
  · simp only [step, getElem?_sets_flush] at there
    obtain ⟨before, here, rfl⟩ := Option.map_eq_some_iff.mp there
    exact (everywhere index before here).flush fun _ => rfl
  · exact (everywhere index s there).aside fun _ => rfl

/-- Rankings and dates agree in all sets after every run. -/
theorem dated_run (everywhere : c.Everywhere (Dated c.locate kind events))
    (stamped : kind.stampsOn .fill = true) (ops : List Op) :
    (c.run ops).2.Everywhere (Dated c.locate kind (events ++ c.history ops)) := by
  induction ops generalizing c events with
  | nil =>
    rw [history, List.zip_nil_left, List.append_nil]
    exact everywhere
  | cons op ops ih =>
    have same : (c.step op).2.locate = c.locate := funext fun address => c.locate_step op address
    have next := dated_step everywhere stamped op
    rw [← same] at next
    have last := ih next
    rw [same, List.append_assoc] at last
    exact last

theorem dated_of_ofConfig (built : ofConfig config = .ok start) :
    start.Everywhere (Dated start.locate config.policy []) := by
  intro index s there
  have kept := kept_of_run built [] index s there
  obtain ⟨g, -, -, fresh⟩ := of_ofConfig built
  refine ⟨kept.sound, kept.kind, [], ?_, ⟨fun _ member => absurd member List.not_mem_nil, .nil⟩⟩
  rw [fresh index s there]
  exact CacheSet.ranked_ofGeometry ..

/-- The victim of two disciplines alone is the open line with the earliest date. -/
theorem Dated.earliest_iff (dated : Dated locate kind events index s)
    (oldest : kind = .lru ∨ kind = .fifo) {old : Nat} {victim : Line}
    (chosen : (s.policy.search s.view).1 = some victim.way) (held : s.Holds old victim)
    (released : victim.pinned = false) (tag : Nat) :
    Foremost (· ≤ ·) (fun tag => events.lastUse? locate kind.stampsOn (index, tag)) s.Offers tag ↔
      tag = old := by
  obtain ⟨order, ranked, chronicle⟩ := dated.ranked
  have tidy := dated.sound.tidy
  have offered : s.Offers old := ⟨victim, held, released⟩
  refine foremost_iff Nat.le_antisymm offered (fun other offers => ?_) tag
  have listed := offers.member tidy ranked
  obtain ⟨line, also, free⟩ := offers
  have stamps := CacheSet.stamp_oldest_le dated.sound (dated.kind_eq.symm ▸ oldest) chosen held
    also free
  exact ranked.date_le chronicle (offered.member tidy ranked) listed stamps

/-- The victim of the third alone is the open line with the last date. -/
theorem Dated.latest_iff (dated : Dated locate kind events index s) (newest : kind = .mru)
    {old : Nat} {victim : Line} (chosen : (s.policy.search s.view).1 = some victim.way)
    (held : s.Holds old victim) (released : victim.pinned = false) (tag : Nat) :
    Foremost (· ≥ ·) (fun tag => events.lastUse? locate kind.stampsOn (index, tag)) s.Offers tag ↔
      tag = old := by
  obtain ⟨order, ranked, chronicle⟩ := dated.ranked
  have tidy := dated.sound.tidy
  have offered : s.Offers old := ⟨victim, held, released⟩
  refine foremost_iff (fun less more => Nat.le_antisymm more less) offered (fun other offers => ?_)
    tag
  have listed := offers.member tidy ranked
  obtain ⟨line, also, free⟩ := offers
  have stamps := CacheSet.le_stamp_newest dated.sound (dated.kind_eq.trans newest) chosen held
    also free
  obtain ⟨j, i, found, date, less, same⟩ :=
    ranked.date_le chronicle listed (offered.member tidy ranked) stamps
  exact ⟨i, j, date, found, less, fun equal => (same equal.symm).symm⟩

/-- An access that reports an evicted line found none of its own in a full set, and the
policy chose the way of that line, which was not pinned. -/
theorem chosen_of_evicted (sound : c.Sound) {address : UInt64} {write : Bool} {a : Access}
    {evicted : Evicted} (answered : (c.access address write).1 = .ok a)
    (left : a.evicted = some evicted) :
    ((c.setOf address).policy.search (c.setOf address).view).1 = some evicted.way ∧
      (c.setOf address).Holds evicted.tag ⟨evicted.way, evicted.dirty, false⟩ := by
  have asked : Op.request? (.access address write) = some (address, .access write) := rfl
  obtain ⟨response, effect, stepped⟩ := sound.effect_step asked
  have answer : Answer.accessed (.ok a) = response.reply.answer (c.locate address).1 := by
    rw [← answered]
    exact congrArg Prod.fst stepped
  cases effect with
  | hit | fill =>
    cases answer
    cases left
  | exhausted => cases answer
  | replace old victim absent full chosen held released =>
    cases answer
    cases left
    exact ⟨chosen, released ▸ held⟩

/-- The line that an access evicts is told by the history before it, among the lines that
the set may give up: it is the one used first or last by its latest use, or filled first,
as the discipline has it, and no other line fits this description. -/
theorem evictions_follow_history (built : ofConfig config = .ok start) (ops : List Op)
    (address : UInt64) (write : Bool) {a : Access} {evicted : Evicted}
    (answered : ((start.run ops).2.access address write).1 = .ok a)
    (left : a.evicted = some evicted) :
    let s := (start.run ops).2.setOf address
    let lastUse counts tag :=
      (start.history ops).lastUse? start.locate counts ((start.locate address).1, tag)
    s.Holds evicted.tag ⟨evicted.way, evicted.dirty, false⟩ ∧
    (config.policy = .lru →
      ∀ tag, Foremost (· ≤ ·) (lastUse fun _ => true) s.Offers tag ↔ tag = evicted.tag) ∧
    (config.policy = .mru →
      ∀ tag, Foremost (· ≥ ·) (lastUse fun _ => true) s.Offers tag ↔ tag = evicted.tag) ∧
    (config.policy = .fifo →
      ∀ tag, Foremost (· ≤ ·) (lastUse (· == .fill)) s.Offers tag ↔ tag = evicted.tag) := by
  intro s lastUse
  have sound : (start.run ops).2.Sound := (sound_of_ofConfig built).run ops
  obtain ⟨chosen, held⟩ := chosen_of_evicted sound answered left
  have dated : config.policy.stampsOn .fill = true →
      Dated start.locate config.policy (start.history ops) (start.locate address).1 s := by
    intro stamped
    have all := dated_run (dated_of_ofConfig built) stamped ops
    have here := Everywhere.setOf all address
    rwa [locate_run] at here
  refine ⟨held, ?_, ?_, ?_⟩
  · intro lru tag
    rw [lru] at dated
    exact (dated rfl).earliest_iff (.inl rfl) chosen held rfl tag
  · intro mru tag
    rw [mru] at dated
    exact (dated rfl).latest_iff rfl chosen held rfl tag
  · intro fifo tag
    have fills : Kind.fifo.stampsOn = (· == Use.fill) := by
      funext use
      cases use <;> rfl
    rw [fifo] at dated
    have earliest := (dated rfl).earliest_iff (.inr rfl) chosen held rfl tag
    rwa [fills] at earliest

/-- Of two ways, the one not used again gives way under the least recently used discipline,
the other one under the most recently used one. A line filled first but pinned when its turn
came up is the next to leave in order of filling, once it is pinned no more. -/
theorem pairs_give_up_lines_in_order :
    (∃ start, ofConfig { Config.pair with policy := .lru } = .ok start ∧ ∀ tag,
      Foremost (· ≤ ·)
        (fun tag => (start.history [.access 0 false, .access 64 true, .access 0 false]).lastUse?
          start.locate (fun _ => true) (0, tag))
        ((start.run [.access 0 false, .access 64 true, .access 0 false]).2.setOf 128).Offers tag ↔
      tag = 1) ∧
    (∃ start, ofConfig { Config.pair with policy := .mru } = .ok start ∧ ∀ tag,
      Foremost (· ≥ ·)
        (fun tag => (start.history [.access 0 false, .access 64 true, .access 0 false]).lastUse?
          start.locate (fun _ => true) (0, tag))
        ((start.run [.access 0 false, .access 64 true, .access 0 false]).2.setOf 128).Offers tag ↔
      tag = 0) ∧
    ∃ start, ofConfig Config.pair = .ok start ∧ ∀ tag,
      Foremost (· ≤ ·)
        (fun tag => (start.history [.access 0 false, .access 64 true, .pin 0, .access 128 false,
          .unpin 0]).lastUse? start.locate (· == .fill) (0, tag))
        ((start.run [.access 0 false, .access 64 true, .pin 0, .access 128 false,
          .unpin 0]).2.setOf 192).Offers tag ↔
      tag = 0 := by
  refine ⟨⟨_, rfl, ?_⟩, ⟨_, rfl, ?_⟩, ⟨_, rfl, ?_⟩⟩
  · exact (evictions_follow_history
      (rfl : ofConfig { Config.pair with policy := .lru } = .ok _)
      [.access 0 false, .access 64 true, .access 0 false] 128 false rfl rfl).2.1 rfl
  · exact (evictions_follow_history
      (rfl : ofConfig { Config.pair with policy := .mru } = .ok _)
      [.access 0 false, .access 64 true, .access 0 false] 128 false rfl rfl).2.2.1 rfl
  · exact (evictions_follow_history (rfl : ofConfig Config.pair = .ok _)
      [.access 0 false, .access 64 true, .pin 0, .access 128 false, .unpin 0] 192 false
      rfl rfl).2.2.2 rfl

end Cache

end SetAssociative
