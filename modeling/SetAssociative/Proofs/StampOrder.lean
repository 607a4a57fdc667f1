import SetAssociative.Proofs.LineTracking

/-! Three disciplines stamp ways with the time of a use, and evict the way with the
smallest or the largest stamp. The lines of a set are ranked by these stamps, the latest
first. What a request does to this ranking is told by the reply to it: a line that gets
the next stamp comes to the front, and a line that leaves is struck out. -/
namespace SetAssociative

/-- Whether a discipline stamps a way that is used like this. -/
def Kind.stampsOn : Kind → Use → Bool
  | .lru, _ | .mru, _ | .fifo, .fill => true
  | .fifo, .hit | .roundRobin, _ | .plru, _ | .random, _ | .nru, _ => false

namespace Stamps
variable {s : Stamps} {view : View} {way other : Nat}

/-- No stamp is of a later time than the last touch. -/
def Past (s : Stamps) : Prop := ∀ way, s.time way ≤ s.clock

theorem past_untouched (ways : Nat) : (untouched ways).Past := by
  intro way
  simp only [untouched, time, List.getD_eq_getElem?_getD, List.getElem?_replicate]
  split <;> exact Nat.le_refl 0

theorem clock_touch (inside : way < s.ways) : (s.touch way).clock = s.clock + 1 := by
  simp [touch, inside]

theorem Past.touch (past : s.Past) (way : Nat) : (s.touch way).Past := by
  intro other
  by_cases inside : way < s.ways
  · rw [time_touch s inside, clock_touch inside]
    split
    · exact Nat.le_refl _
    · exact Nat.le_succ_of_le (past other)
  · rw [Stamps.touch, if_neg inside]
    exact past other

/-- No evictable way is stamped earlier than the oldest. -/
theorem time_oldest_le (chosen : s.oldest view = some way) (inside : other < s.ways)
    (open_way : view other = true) : s.time way ≤ s.time other := by
  have member : other ∈ view.candidates s.ways := View.mem_candidates.mpr ⟨inside, open_way⟩
  have least := List.apply_get_minOn?_le_of_mem (f := s.time) member
  simpa only [show (view.candidates s.ways).minOn? s.time = some way from chosen,
    Option.get_some] using least

/-- No evictable way is stamped later than the newest. -/
theorem le_time_newest (chosen : s.newest view = some way) (inside : other < s.ways)
    (open_way : view other = true) : s.time other ≤ s.time way := by
  have member : other ∈ view.candidates s.ways := View.mem_candidates.mpr ⟨inside, open_way⟩
  have greatest := List.le_apply_get_maxOn?_of_mem (f := s.time) member
  simpa only [show (view.candidates s.ways).maxOn? s.time = some way from chosen,
    Option.get_some] using greatest

end Stamps

namespace Policy
variable {p : Policy} {view : View}

/-- The stamps that a policy keeps; the other disciplines stamp no way. -/
def stamps : Policy → Stamps
  | .fifo times | .lru times | .mru times => times
  | .roundRobin _ | .plru _ | .random _ | .nru _ => .untouched 0

theorem stamps_record (p : Policy) (use : Use) (way : Nat) :
    (p.record ⟨use, way⟩).stamps =
      if p.kind.stampsOn use then p.stamps.touch way else p.stamps := by
  cases p <;> cases use <;> rfl

@[simp] theorem stamps_search (p : Policy) (view : View) : (p.search view).2.stamps = p.stamps := by
  cases p <;> rfl

theorem ways_stamps (stamped : p.kind.stampsOn .fill = true) : p.stamps.ways = p.ways := by
  cases p with
  | fifo | lru | mru => rfl
  | roundRobin | plru | random | nru => cases stamped

theorem past_fresh (kind : Kind) (ways : Nat) (seed : UInt64) :
    (fresh kind ways seed).stamps.Past := by
  cases kind <;> exact Stamps.past_untouched _

/-- The victim of two disciplines is the evictable way that was stamped first. -/
theorem search_eq_oldest (kind : p.kind = .lru ∨ p.kind = .fifo) :
    (p.search view).1 = p.stamps.oldest view := by
  cases p with
  | fifo | lru => rfl
  | roundRobin | mru | plru | random | nru => rcases kind with kind | kind <;> cases kind

/-- The victim of the third is the evictable way that was stamped last. -/
theorem search_eq_newest (kind : p.kind = .mru) : (p.search view).1 = p.stamps.newest view := by
  cases p with
  | mru => rfl
  | roundRobin | fifo | lru | plru | random | nru => cases kind

end Policy

namespace CacheSet
variable {s t : CacheSet} {tag other way : Nat} {dirty pinned : Bool} {line : Line}

theorem find?_eq_map_line? (s : CacheSet) (tag : Nat) :
    s.find? tag = (s.line? tag).map Line.way := by
  unfold line?
  cases found : s.find? tag with
  | none => rfl
  | some way =>
    obtain ⟨line, rfl, held⟩ := holds_of_find? found
    rw [Option.bind_some, held]
    rfl

/-- One way is found for one tag only. -/
theorem eq_of_find? (first : s.find? tag = some way) (second : s.find? other = some way) :
    tag = other := by
  obtain ⟨line, rfl, held⟩ := holds_of_find? first
  obtain ⟨kept, same, also⟩ := holds_of_find? second
  exact (held.eq_of_way also same.symm).1

theorem find?_put_of_holds (tidy : s.Tidy) (held : s.Holds tag line) :
    (s.put tag line.way dirty pinned).find? other = s.find? other := by
  rw [find?_eq_map_line?, line?_put_of_holds tidy held, find?_eq_map_line? s]
  split
  · rename_i same
    rw [same, line?_of_holds tidy held]
    rfl
  · rfl

theorem find?_put_of_vacant (tidy : s.Tidy) {w : Way} (here : s.way? way = some w)
    (vacant : w.valid = false) (absent : s.find? tag = none) :
    (s.put tag way dirty pinned).find? other =
      if other = tag then some way else s.find? other := by
  rw [find?_eq_map_line?, line?_put_of_vacant tidy here vacant absent, find?_eq_map_line? s]
  split <;> rfl

theorem find?_put_of_victim (tidy : s.Tidy) {old : Nat} {victim : Line}
    (held : s.Holds old victim) (absent : s.find? tag = none) :
    (s.put tag victim.way dirty pinned).find? other =
      if other = tag then some victim.way else if other = old then none else s.find? other := by
  rw [find?_eq_map_line?, line?_put_of_victim tidy held absent, find?_eq_map_line? s]
  split
  · rfl
  · split <;> rfl

theorem find?_clear (tidy : s.Tidy) (held : s.Holds tag line) :
    (s.clear line.way).find? other = if other = tag then none else s.find? other := by
  rw [find?_eq_map_line?, line?_clear tidy held, find?_eq_map_line? s]
  split <;> rfl

theorem find?_flush_of_isSome (tidy : s.Tidy) (kept : (s.flush.2.find? tag).isSome) :
    s.flush.2.find? tag = s.find? tag := by
  rw [find?_eq_map_line?, line?_flush tidy] at kept ⊢
  rw [find?_eq_map_line? s]
  cases there : s.line? tag with
  | none => rfl
  | some line =>
    rw [there] at kept
    cases clean : !line.dirty with
    | true => rw [Option.filter_some, if_pos clean]
    | false => simp [Option.filter_some, clean] at kept

/-- The stamp of the way that holds the line of a tag. -/
def stamp (s : CacheSet) (tag : Nat) : Nat := ((s.find? tag).map s.policy.stamps.time).getD 0

theorem stamp_of_find? (found : s.find? tag = some way) :
    s.stamp tag = s.policy.stamps.time way := by
  rw [stamp, found]
  rfl

/-- The tags of all lines of the set, those with later stamps first. -/
structure Ranked (s : CacheSet) (order : List Nat) : Prop where
  past : s.policy.stamps.Past
  member : ∀ {tag}, tag ∈ order ↔ (s.find? tag).isSome
  descending : order.Pairwise fun newer older => s.stamp older < s.stamp newer

variable {order rest : List Nat}

theorem Ranked.nodup (ranked : s.Ranked order) : order.Nodup := by
  refine ranked.descending.imp fun later same => ?_
  rw [same] at later
  exact Nat.lt_irrefl _ later

/-- The ranking lists the tags of the lines that are held. -/
theorem Ranked.mem_iff_holds (ranked : s.Ranked order) (tidy : s.Tidy) :
    tag ∈ order ↔ ∃ line, s.Holds tag line := ranked.member.trans tidy.isSome_find?_iff

/-- A set without lines has nothing to rank. -/
theorem ranked_ofGeometry (config : Config) (g : Geometry) (seed : UInt64) :
    (ofGeometry config g seed).Ranked [] where
  past := Policy.past_fresh config.policy g.ways seed
  member := by
    intro tag
    have absent : (ofGeometry config g seed).find? tag = none :=
      find?_eq_none_iff.mpr fun _ => not_holds_empty
    simp only [absent, List.not_mem_nil, Option.isSome_none, Bool.false_eq_true]
  descending := .nil

/-- When no way is stamped, lines may leave, but the others keep their ranks. -/
theorem Ranked.keep (ranked : s.Ranked order) (included : rest.Sublist order)
    (stamps : t.policy.stamps = s.policy.stamps)
    (found : ∀ tag ∈ rest, t.find? tag = s.find? tag)
    (complete : ∀ tag, (t.find? tag).isSome → tag ∈ rest) : t.Ranked rest where
  past := by
    rw [stamps]
    exact ranked.past
  member := by
    intro tag
    refine ⟨fun member => ?_, complete tag⟩
    rw [found tag member]
    exact ranked.member.mp (included.subset member)
  descending := by
    have same : ∀ tag ∈ rest, t.stamp tag = s.stamp tag := by
      intro tag member
      rw [stamp, found tag member, stamps, stamp]
    refine (ranked.descending.sublist included).imp_of_mem fun newer older later => ?_
    rwa [same _ newer, same _ older]

/-- The line in a way that gets the next stamp comes before all others. -/
theorem Ranked.front (ranked : s.Ranked order) (included : rest.Sublist order)
    (stamps : t.policy.stamps = s.policy.stamps.touch way) (inside : way < s.policy.stamps.ways)
    (here : t.find? tag = some way)
    (elsewhere : ∀ other ∈ rest, t.find? other = s.find? other ∧ s.find? other ≠ some way)
    (complete : ∀ other, (t.find? other).isSome → other = tag ∨ other ∈ rest) :
    t.Ranked (tag :: rest) where
  past := by
    rw [stamps]
    exact ranked.past.touch way
  member := by
    intro other
    rw [List.mem_cons]
    refine ⟨?_, complete other⟩
    rintro (rfl | member)
    · rw [here]
      rfl
    · rw [(elsewhere other member).1]
      exact ranked.member.mp (included.subset member)
  descending := by
    have first : t.stamp tag = s.policy.stamps.clock + 1 := by
      rw [stamp_of_find? here, stamps, Stamps.time_touch _ inside, if_pos rfl]
    have same : ∀ other ∈ rest, t.stamp other = s.stamp other := by
      intro other member
      obtain ⟨kept, apart⟩ := elsewhere other member
      obtain ⟨place, found⟩ := Option.isSome_iff_exists.mp
        (ranked.member.mp (included.subset member))
      rw [found] at kept apart
      rw [stamp_of_find? kept, stamp_of_find? found, stamps, Stamps.time_touch _ inside,
        if_neg (fun equal => apart (congrArg some equal.symm))]
    rw [List.pairwise_cons]
    constructor
    · intro other member
      obtain ⟨place, found⟩ := Option.isSome_iff_exists.mp
        (ranked.member.mp (included.subset member))
      rw [same other member, first, stamp_of_find? found]
      exact Nat.lt_succ_of_le (ranked.past place)
    · refine (ranked.descending.sublist included).imp_of_mem fun newer older later => ?_
      rwa [same _ newer, same _ older]

theorem Ranked.not_mem (ranked : s.Ranked order) (absent : s.find? tag = none) : tag ∉ order := by
  intro member
  have there := ranked.member.mp member
  rw [absent] at there
  cases there

theorem Ranked.mem_erase (ranked : s.Ranked order) :
    other ∈ order.erase tag ↔ other ≠ tag ∧ (s.find? other).isSome := by
  rw [ranked.nodup.mem_erase_iff, ranked.member]

theorem Sound.ways_stamps (sound : s.Sound) (stamped : s.policy.kind.stampsOn .fill = true) :
    s.policy.stamps.ways = s.ways := (Policy.ways_stamps stamped).trans sound.fits

variable {policy : Policy}

/-- A held line keeps its rank while it changes, unless its way is stamped. -/
theorem Ranked.retained (ranked : s.Ranked order) (tidy : s.Tidy) (held : s.Holds tag line)
    (stamps : policy.stamps = s.policy.stamps) :
    ((s.put tag line.way dirty pinned).withPolicy policy).Ranked order := by
  have same : ∀ other, (s.put tag line.way dirty pinned).find? other = s.find? other :=
    fun _ => find?_put_of_holds tidy held
  refine ranked.keep (List.Sublist.refl _) stamps (fun other _ => same other) fun other found => ?_
  exact ranked.member.mpr (same other ▸ found)

/-- A held line whose way is stamped moves to the front. -/
theorem Ranked.touched (ranked : s.Ranked order) (tidy : s.Tidy) (held : s.Holds tag line)
    (stamps : policy.stamps = s.policy.stamps.touch line.way)
    (inside : line.way < s.policy.stamps.ways) :
    ((s.put tag line.way dirty pinned).withPolicy policy).Ranked (tag :: order.erase tag) := by
  have there := tidy.find?_of_holds held
  have same : ∀ other, (s.put tag line.way dirty pinned).find? other = s.find? other :=
    fun _ => find?_put_of_holds tidy held
  refine ranked.front List.erase_sublist stamps inside ((same tag).trans there) ?_ ?_
  · intro other member
    exact ⟨same other, fun here => (ranked.mem_erase.mp member).1 (eq_of_find? here there)⟩
  · intro other found
    by_cases equal : other = tag
    · exact .inl equal
    · exact .inr (ranked.mem_erase.mpr ⟨equal, same other ▸ found⟩)

/-- A line that fills a vacant way comes first. -/
theorem Ranked.filled (ranked : s.Ranked order) (tidy : s.Tidy) {w : Way}
    (here : s.way? way = some w) (vacant : w.valid = false) (absent : s.find? tag = none)
    (stamps : policy.stamps = s.policy.stamps.touch way) (inside : way < s.policy.stamps.ways) :
    ((s.put tag way dirty pinned).withPolicy policy).Ranked (tag :: order) := by
  have after : ∀ other, (s.put tag way dirty pinned).find? other =
      if other = tag then some way else s.find? other :=
    fun _ => find?_put_of_vacant tidy here vacant absent
  refine ranked.front (List.Sublist.refl _) stamps inside ((after tag).trans (if_pos rfl)) ?_ ?_
  · intro other member
    have apart : other ≠ tag := ne_of_mem_of_not_mem member (ranked.not_mem absent)
    refine ⟨(after other).trans (if_neg apart), fun same => ?_⟩
    obtain ⟨kept, rfl, held⟩ := holds_of_find? same
    exact held.way_ne here vacant rfl
  · intro other found
    by_cases equal : other = tag
    · exact .inl equal
    · exact .inr (ranked.member.mpr ((after other).trans (if_neg equal) ▸ found))

/-- A line that takes the way of another comes first, and the other is struck out. -/
theorem Ranked.replaced (ranked : s.Ranked order) (tidy : s.Tidy) {old : Nat} {victim : Line}
    (held : s.Holds old victim) (absent : s.find? tag = none)
    (stamps : policy.stamps = s.policy.stamps.touch victim.way)
    (inside : victim.way < s.policy.stamps.ways) :
    ((s.put tag victim.way dirty pinned).withPolicy policy).Ranked (tag :: order.erase old) := by
  have after : ∀ other, (s.put tag victim.way dirty pinned).find? other =
      if other = tag then some victim.way else if other = old then none else s.find? other :=
    fun _ => find?_put_of_victim tidy held absent
  refine ranked.front List.erase_sublist stamps inside ((after tag).trans (if_pos rfl)) ?_ ?_
  · intro other member
    obtain ⟨apart, before⟩ := ranked.mem_erase.mp member
    have new : other ≠ tag :=
      ne_of_mem_of_not_mem (ranked.member.mpr before) (ranked.not_mem absent)
    refine ⟨(after other).trans ((if_neg new).trans (if_neg apart)), fun same => apart ?_⟩
    exact eq_of_find? same (tidy.find?_of_holds held)
  · intro other found
    by_cases equal : other = tag
    · exact .inl equal
    · have kept := (after other).trans (if_neg equal) ▸ found
      by_cases gone : other = old
      · rw [if_pos gone] at kept
        cases kept
      · rw [if_neg gone] at kept
        exact .inr (ranked.mem_erase.mpr ⟨gone, kept⟩)

/-- A line that leaves is struck out. -/
theorem Ranked.removed (ranked : s.Ranked order) (tidy : s.Tidy) (held : s.Holds tag line) :
    (s.clear line.way).Ranked (order.erase tag) := by
  have after : ∀ other, (s.clear line.way).find? other =
      if other = tag then none else s.find? other :=
    fun _ => find?_clear tidy held
  refine ranked.keep List.erase_sublist rfl ?_ ?_
  · intro other member
    exact (after other).trans (if_neg (ranked.mem_erase.mp member).1)
  · intro other found
    rw [after other] at found
    split at found
    · cases found
    · rename_i apart
      exact ranked.mem_erase.mpr ⟨apart, found⟩

/-- A flush strikes out the lines that leave. -/
theorem Ranked.flush (ranked : s.Ranked order) (tidy : s.Tidy) :
    s.flush.2.Ranked (order.filter fun tag => (s.flush.2.find? tag).isSome) := by
  refine ranked.keep List.filter_sublist rfl ?_ ?_
  · intro tag member
    exact find?_flush_of_isSome tidy (List.mem_filter.mp member).2
  · intro tag found
    have before : (s.find? tag).isSome := find?_flush_of_isSome tidy found ▸ found
    exact List.mem_filter.mpr ⟨ranked.member.mpr before, found⟩

/-- A ranking after a request, as the reply to it tells. -/
def rerank (kind : Kind) (order : List Nat) (tag : Nat) : Reply → List Nat
  | .placed (.ok p) =>
    if p.hit then
      if kind.stampsOn .hit then tag :: order.erase tag else order
    else
      match p.evicted with
      | some line => tag :: order.erase line.tag
      | none => tag :: order
  | .placed (.error _) => order
  | .found _ => order
  | .removed _ => order.erase tag

/-- Requests change the ranking as their replies tell. -/
theorem Ranked.serve (ranked : s.Ranked order) (sound : s.Sound)
    (stamped : s.policy.kind.stampsOn .fill = true) (tag : Nat) (request : Request) :
    (s.serve tag request).set.Ranked
      (rerank s.policy.kind order tag (s.serve tag request).reply) := by
  have tidy := sound.tidy
  have ways := sound.ways_stamps stamped
  have effect := effect_serve sound.fits tag request
  generalize s.serve tag request = response at effect
  cases effect with
  | hit line found held =>
    have stamps := s.policy.stamps_record .hit line.way
    simp only [rerank, ↓reduceIte]
    cases promoted : s.policy.kind.stampsOn .hit with
    | false => exact ranked.retained tidy held (stamps.trans (by rw [promoted]; rfl))
    | true =>
      exact ranked.touched tidy held (stamps.trans (if_pos promoted)) (ways ▸ held.inside)
  | fill way w absent free here vacant =>
    have stamps := (s.policy.stamps_record .fill way).trans (if_pos stamped)
    exact ranked.filled tidy here vacant absent stamps (ways ▸ lt_ways_of_way? here)
  | replace old victim absent full chosen held released =>
    have stamps := (s.policy.search s.view).2.stamps_record .fill victim.way
    rw [Policy.kind_search, if_pos stamped, Policy.stamps_search] at stamps
    exact ranked.replaced tidy held absent stamps (ways ▸ held.inside)
  | exhausted absent full none_open =>
    exact ranked.keep (List.Sublist.refl _) (Policy.stamps_search _ _) (fun _ _ => rfl)
      fun _ found => ranked.member.mpr found
  | pinned line found held => exact ranked.retained tidy held rfl
  | unfound absent => exact ranked
  | removed line found held => exact ranked.removed tidy held
  | missing absent =>
    simpa only [rerank, List.erase_of_not_mem (ranked.not_mem absent)] using ranked

/-- The line that two disciplines give up is stamped no later than any other that may be
evicted. -/
theorem stamp_oldest_le (sound : s.Sound) (kind : s.policy.kind = .lru ∨ s.policy.kind = .fifo)
    {old : Nat} {victim : Line} (chosen : (s.policy.search s.view).1 = some victim.way)
    (held : s.Holds old victim) (also : s.Holds tag line) (released : line.pinned = false) :
    s.stamp old ≤ s.stamp tag := by
  have ways := sound.ways_stamps (by rcases kind with kind | kind <;> rw [kind] <;> rfl)
  rw [stamp_of_find? (sound.tidy.find?_of_holds held),
    stamp_of_find? (sound.tidy.find?_of_holds also)]
  rw [Policy.search_eq_oldest kind] at chosen
  exact Stamps.time_oldest_le chosen (ways ▸ also.inside) (also.view_of_released released)

/-- The line that the third gives up is stamped no earlier. -/
theorem le_stamp_newest (sound : s.Sound) (kind : s.policy.kind = .mru)
    {old : Nat} {victim : Line} (chosen : (s.policy.search s.view).1 = some victim.way)
    (held : s.Holds old victim) (also : s.Holds tag line) (released : line.pinned = false) :
    s.stamp tag ≤ s.stamp old := by
  have ways := sound.ways_stamps (by rw [kind]; rfl)
  rw [stamp_of_find? (sound.tidy.find?_of_holds held),
    stamp_of_find? (sound.tidy.find?_of_holds also)]
  rw [Policy.search_eq_newest kind] at chosen
  exact Stamps.le_time_newest chosen (ways ▸ also.inside) (also.view_of_released released)

end CacheSet

end SetAssociative
