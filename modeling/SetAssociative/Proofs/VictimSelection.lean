import SetAssociative.Proofs.SetFrame
import SetAssociative.Replacement.Events

/-! A search for a victim finds an evictable way whenever there is one, and reports
exhaustion exactly when there is none. No discipline relies on its history for this:
each search is exhaustive from any state, so views may change between requests and
speak of more or fewer ways than the policy has. -/
namespace SetAssociative

/-- What a search below a bound may yield: a candidate, or nothing if there are no
candidates. -/
def View.Picks (view : View) (ways : Nat) : Option Nat → Prop
  | some way => way ∈ view.candidates ways
  | none => view.candidates ways = []

/-- What a request for a victim may answer: an evictable way below the bound, or that
the ways are exhausted when none of them is evictable. -/
def View.Justifies (view : View) (ways : Nat) : Except CacheError Nat → Prop
  | .ok way => way < ways ∧ view way = true
  | .error cause => cause = .exhausted ways ∧ ∀ way < ways, view way = false

section Searches
variable {view : View} {ways : Nat}

private theorem picks_of_isSome_iff {found : Option Nat}
    (complete : found.isSome ↔ view.candidates ways ≠ [])
    (member : ∀ way, found = some way → way ∈ view.candidates ways) : view.Picks ways found := by
  cases found with
  | none => exact Classical.byContradiction fun some => nomatch complete.mpr some
  | some way => exact member way rfl

private theorem picks_head : view.Picks ways (view.candidates ways).head? :=
  picks_of_isSome_iff List.isSome_head? fun _ => List.mem_of_head?

/-- A turn of the cursor visits the ways that exist and no others. -/
theorem Cursor.mem_turn {c : Cursor} {way : Nat} : way ∈ c.turn ↔ way < c.ways := by
  simp only [turn, List.mem_map, List.mem_range]
  constructor
  · rintro ⟨step, inside, rfl⟩
    exact Nat.mod_lt _ (by omega)
  · intro inside
    refine ⟨(way + (c.ways - c.next % c.ways)) % c.ways, Nat.mod_lt _ (by omega), ?_⟩
    have bound : c.next % c.ways < c.ways := Nat.mod_lt _ (by omega)
    have whole : c.ways * (c.next / c.ways) + c.next % c.ways = c.next := Nat.div_add_mod ..
    have around : c.next + (way + (c.ways - c.next % c.ways)) =
        way + c.ways * (c.next / c.ways + 1) := by
      rw [Nat.mul_add_one]
      omega
    rw [Nat.add_mod_mod, around, Nat.add_mul_mod_self_left, Nat.mod_eq_of_lt inside]

theorem Cursor.picks_select (c : Cursor) : view.Picks c.ways (c.select view).1 := by
  unfold select
  cases found : c.turn.find? view with
  | none =>
    refine View.candidates_eq_nil_iff.mpr fun way inside => ?_
    simpa using List.find?_eq_none.mp found way (mem_turn.mpr inside)
  | some way =>
    exact View.mem_candidates.mpr
      ⟨mem_turn.mp (List.mem_of_find?_eq_some found), List.find?_some found⟩

theorem Stamps.picks_oldest (s : Stamps) : view.Picks s.ways (s.oldest view) :=
  picks_of_isSome_iff List.isSome_minOn?_iff fun _ => List.minOn?_mem

theorem Stamps.picks_newest (s : Stamps) : view.Picks s.ways (s.newest view) :=
  picks_of_isSome_iff List.isSome_maxOn?_iff fun _ => List.maxOn?_mem

/-- The fallback to the first evictable way makes the preference for unmarked ways
harmless. -/
theorem Marks.picks_select (m : Marks) : view.Picks m.ways (m.select view) := by
  unfold select
  cases found : m.firstUnmarked view with
  | none => exact picks_head
  | some way => exact List.mem_of_find?_eq_some found

theorem Marks.picks_selectClearing (m : Marks) :
    view.Picks m.ways (m.selectClearing view).1 := by
  unfold selectClearing
  cases found : m.firstUnmarked view with
  | none => exact picks_head
  | some way => exact List.mem_of_find?_eq_some found

/-- A draw that is accepted lands on a candidate. -/
theorem Lottery.drawEvictable_mem {draws : Nat} {g after : Generator} {way : Nat}
    (positive : 0 < ways) (drawn : drawEvictable ways view draws g = (some way, after)) :
    way ∈ view.candidates ways := by
  induction draws generalizing g with
  | zero => simp [drawEvictable] at drawn
  | succ draws ih =>
    simp only [drawEvictable] at drawn
    split at drawn
    · rename_i accepted
      obtain ⟨rfl, -⟩ := Prod.mk.inj drawn |>.imp Option.some.inj id
      exact View.mem_candidates.mpr ⟨g.draw_lt positive, accepted⟩
    · exact ih drawn

/-- When every draw was refused, the last one ranks the candidates, so that it names
one of them. -/
theorem Lottery.picks_select (l : Lottery) : view.Picks l.ways (l.select view).1 := by
  unfold select
  cases drawn : drawEvictable l.ways view l.ways l.generator with
  | mk found after =>
    cases found with
    | some way =>
      have positive : 0 < l.ways := by
        apply Nat.pos_of_ne_zero
        intro none
        simp [none, drawEvictable] at drawn
      exact drawEvictable_mem positive drawn
    | none =>
      dsimp only
      split
      · rename_i empty
        exact List.isEmpty_iff.mp empty
      · rename_i some
        have positive : 0 < (view.candidates l.ways).length :=
          List.length_pos_iff.mpr fun none => some (List.isEmpty_iff.mpr none)
        have ranked := after.draw_lt positive
        rw [List.getElem?_eq_getElem ranked]
        exact List.getElem_mem ranked

end Searches

namespace Policy

/-- All seven disciplines search alike: a candidate is found whenever there is one. -/
theorem picks_search (p : Policy) (view : View) : view.Picks p.ways (p.search view).1 := by
  cases p with
  | roundRobin cursor => exact cursor.picks_select
  | fifo fills => exact fills.picks_oldest
  | lru uses => exact uses.picks_oldest
  | mru uses => exact uses.picks_newest
  | plru marks => exact marks.picks_select
  | random lottery => exact lottery.picks_select
  | nru marks => exact marks.picks_selectClearing

theorem justifies_selectVictim (p : Policy) (view : View) :
    view.Justifies p.ways (p.selectVictim view).1 := by
  have picks := p.picks_search view
  unfold selectVictim
  cases found : (p.search view).1 with
  | some way =>
    rw [found] at picks
    exact View.mem_candidates.mp picks
  | none =>
    rw [found] at picks
    exact ⟨rfl, View.candidates_eq_nil_iff.mp picks⟩

/-- The answers that a sequence of events may get: none to a report of a used way, and
to each request one that its own view justifies. -/
inductive Answered (ways : Nat) : List Event → List Answer → Prop where
  | done : Answered ways [] []
  | used {outcome : Outcome} {events : List Event} {answers : List Answer}
      (rest : Answered ways events answers) :
      Answered ways (.used outcome :: events) (none :: answers)
  | asked {view : View} {result : Except CacheError Nat} {events : List Event}
      {answers : List Answer} (justified : view.Justifies ways result)
      (rest : Answered ways events answers) :
      Answered ways (.asked view :: events) (some result :: answers)

@[simp] theorem ways_step (p : Policy) (event : Event) : (p.step event).2.ways = p.ways := by
  cases event <;> simp [step]

/-- From any state on, a policy answers every later request justly. -/
theorem answered_run (p : Policy) (events : List Event) :
    Answered p.ways events (p.run events).1 := by
  induction events generalizing p with
  | nil => exact .done
  | cons event events ih =>
    have rest := ih (p.step event).2
    rw [ways_step] at rest
    cases event with
    | used outcome => exact .used rest
    | asked view => exact .asked (p.justifies_selectVictim view) rest

/-- Sound sizes always give a fresh policy. -/
theorem ofSizes_eq_fresh (kind : Kind) {ways lineBytes : Nat} (seed : UInt64)
    (some_way : 0 < ways) (fit : ways ≤ maxWays) (power : lineBytes.isPowerOfTwo) :
    ofSizes kind ways lineBytes seed = .ok (fresh kind ways seed) := by
  have nonzero : ways ≠ 0 := by omega
  have few : ¬ maxWays < ways := by omega
  simp only [ofSizes, Geometry.ofSizes, dif_neg nonzero, dif_neg few, dif_pos power, Except.map]

end Policy

namespace CacheSet

/-- The sets that can come about: one is built around a policy with any history, and
then its contract is chosen and single operations are carried out, in any order. -/
inductive Reachable : CacheSet → Prop where
  | built {cacheType : CacheType} {g : Geometry} {s : CacheSet} (kind : Kind) (ways : Nat)
      (seed : UInt64) (events : List Policy.Event)
      (attached : ofPolicy cacheType g ((Policy.fresh kind ways seed).run events).2 = .ok s) :
      Reachable s
  | contracted {s : CacheSet} (contract : Contract) (before : Reachable s) :
      Reachable { s with contract }
  | stepped {s : CacheSet} (op : Op) (before : Reachable s) : Reachable (s.step op).2

theorem fits_of_ofPolicy {cacheType : CacheType} {g : Geometry} {p : Policy} {s : CacheSet}
    (attached : ofPolicy cacheType g p = .ok s) : s.Fits := by
  unfold ofPolicy at attached
  split at attached
  · rename_i same
    cases attached
    simpa [Fits, empty, ways] using same
  · cases attached

/-- The policy of a set fits its ways ever after. -/
theorem fits_of_reachable {s : CacheSet} (reachable : s.Reachable) : s.Fits := by
  induction reachable with
  | built kind ways seed events attached => exact fits_of_ofPolicy attached
  | contracted contract before ih => exact ih
  | stepped op before ih => exact fits_of_build ih (build_step _ op)

/-- A way is open to replacement when it exists and holds a line that is not pinned. -/
theorem view_eq_true_iff {s : CacheSet} {way : Nat} :
    s.view way = true ↔ ∃ w, s.way? way = some w ∧ w.valid = true ∧ w.pinned = false := by
  simp [view, Way.evictable, Option.any_eq_true]

/-- A set whose policy fits it is asked for victims as soundly as the policy. -/
theorem justifies_selectVictim {s : CacheSet} (fits : s.Fits) :
    s.view.Justifies s.ways s.selectVictim.1 := by
  rw [← fits]
  exact s.policy.justifies_selectVictim s.view

end CacheSet

/-- Every policy built for sound sizes answers every request, whatever happened before
and whatever the view, with an evictable way, or with exhaustion exactly when no way is
evictable. So does every set that can come about: it gives up a way that holds a line
that is not pinned, or has none. -/
theorem searches_are_sound_and_exhaustive :
    (∀ (kind : Kind) (ways lineBytes : Nat) (seed : UInt64),
      0 < ways → ways ≤ maxWays → lineBytes.isPowerOfTwo →
      ∃ p, Policy.ofSizes kind ways lineBytes seed = .ok p ∧ p.kind = kind ∧
        ∀ events, Policy.Answered ways events (p.run events).1) ∧
    (∀ s : CacheSet, s.Reachable →
      (∃ way w, s.selectVictim.1 = .ok way ∧ way < s.ways ∧ s.way? way = some w ∧
        w.valid = true ∧ w.pinned = false) ∨
      (s.selectVictim.1 = .error (.exhausted s.ways) ∧ ∀ way < s.ways, s.view way = false)) := by
  constructor
  · intro kind ways lineBytes seed some_way fit power
    refine ⟨_, Policy.ofSizes_eq_fresh kind seed some_way fit power, Policy.kind_fresh .., ?_⟩
    intro events
    simpa only [Policy.ways_fresh] using (Policy.fresh kind ways seed).answered_run events
  · intro s reachable
    have justified := CacheSet.justifies_selectVictim (CacheSet.fits_of_reachable reachable)
    cases answer : s.selectVictim.1 with
    | ok way =>
      rw [answer] at justified
      obtain ⟨w, held, valid, released⟩ := CacheSet.view_eq_true_iff.mp justified.2
      exact .inl ⟨way, w, rfl, justified.1, held, valid, released⟩
    | error cause =>
      rw [answer] at justified
      exact .inr ⟨congrArg _ justified.1, justified.2⟩

/-- A set with a line in one of two ways gives up that line, whatever its bits say. -/
theorem nru_set_gives_up_its_only_line :
    (∃ p, Policy.ofSizes .nru 2 64 0 = .ok p ∧
      Policy.Answered 2 [.used (.fill 1), .asked fun _ => true, .asked fun _ => false]
        (p.run [.used (.fill 1), .asked fun _ => true, .asked fun _ => false]).1) ∧
    ∃ s : CacheSet, s.Reachable ∧ s.selectVictim.1 = .ok 1 := by
  obtain ⟨policies, sets⟩ := searches_are_sound_and_exhaustive
  constructor
  · obtain ⟨p, built, -, answered⟩ := policies .nru 2 64 0 (by decide) (by decide) ⟨6, rfl⟩
    exact ⟨p, built, answered _⟩
  · let g : Geometry := ⟨2, 64, by decide, by decide, ⟨6, rfl⟩⟩
    have built : (CacheSet.empty .unified g (.fresh .nru 2 0) .lenient).Reachable :=
      .built .nru 2 0 [] (g := g) rfl
    have filled := CacheSet.Reachable.stepped (.install 1 7 false) built
    refine ⟨_, filled, ?_⟩
    rcases sets _ filled with ⟨way, w, victim, inside, held, valid, -⟩ | ⟨-, closed⟩
    · have only : way = 1 := by
        rcases way with _ | _ | way
        · cases held
          cases valid
        · rfl
        · have few : way + 2 < 2 := inside
          omega
      rw [victim, only]
    · exact absurd (closed 1 (by decide)) (by decide)

end SetAssociative
