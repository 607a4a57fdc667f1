import SetAssociative.CacheSet.Access
import SetAssociative.CacheSet.Operations

/-! What a set is built with stays as it was through every operation, single ones and
accesses alike. In particular a policy that fits its set keeps fitting it, which
puts every way that the policy names inside the set. -/
namespace SetAssociative

namespace Policy

@[simp] theorem ways_search (p : Policy) (view : View) : (p.search view).2.ways = p.ways := by
  cases p with
  | roundRobin cursor =>
    simp only [search, ways, Cursor.select]
    split <;> rfl
  | random lottery =>
    simp only [search, ways, Lottery.select]
    split
    · rfl
    · split <;> rfl
  | nru marks =>
    simp only [search, ways, Marks.selectClearing]
    split <;> rfl
  | fifo _ | lru _ | mru _ | plru _ => rfl

@[simp] theorem kind_search (p : Policy) (view : View) : (p.search view).2.kind = p.kind := by
  cases p <;> rfl

@[simp] theorem selectVictim_snd (p : Policy) (view : View) :
    (p.selectVictim view).2 = (p.search view).2 := by
  unfold selectVictim
  split <;> rfl

end Policy

/-- The parts of a set that are decided when it is built. -/
structure Build where
  cacheType : CacheType
  lineBytes : Nat
  ways : Nat
  contract : Contract
  kind : Kind
  policyWays : Nat

namespace CacheSet
variable {s t : CacheSet}

/-- What the set was built with. -/
def build (s : CacheSet) : Build where
  cacheType := s.cacheType
  lineBytes := s.lineBytes
  ways := s.ways
  contract := s.contract
  kind := s.policy.kind
  policyWays := s.policy.ways

/-- The policy speaks of exactly the ways that the set has. -/
def Fits (s : CacheSet) : Prop := s.policy.ways = s.ways

theorem fits_of_build (fits : s.Fits) (same : t.build = s.build) : t.Fits := by
  have ways := congrArg Build.ways same
  have policyWays := congrArg Build.policyWays same
  exact policyWays.trans (Eq.trans fits ways.symm)

@[simp] theorem build_setWay (s : CacheSet) (way : Nat) (w : Way) :
    (s.setWay way w).build = s.build := by
  simp [build, setWay, ways]

theorem build_of_policy (kind : t.policy.kind = s.policy.kind)
    (ways : t.policy.ways = s.policy.ways)
    (rest : t = { s with policy := t.policy }) : t.build = s.build := by
  rw [rest]
  simp [build, CacheSet.ways, kind, ways]

@[simp] theorem build_change (s : CacheSet) (way : Nat) (update : Way → Way) :
    (s.change way update).2.build = s.build := by
  unfold change
  split
  · exact build_setWay ..
  · rfl

@[simp] theorem build_invalidate (s : CacheSet) (way : Nat) :
    (s.invalidate way).2.build = s.build := by
  unfold invalidate
  split
  · exact build_setWay ..
  · rfl

@[simp] theorem build_selectVictim (s : CacheSet) : s.selectVictim.2.build = s.build :=
  build_of_policy (by simp [selectVictim]) (by simp [selectVictim]) rfl

theorem build_install {way tag : Nat} {dirty : Bool} {line : Option Evicted}
    (installed : s.install way tag dirty = .ok (line, t)) : t.build = s.build := by
  unfold install at installed
  split at installed
  · cases installed
    exact build_setWay ..
  · cases installed

theorem build_record {o : Outcome} (recorded : s.record o = .ok t) : t.build = s.build := by
  unfold record at recorded
  split at recorded
  · cases recorded
    exact build_of_policy (by simp) (by simp) rfl
  · split at recorded
    · cases recorded
      rfl
    · cases recorded

/-- No single operation changes what the set was built with. -/
theorem build_step (s : CacheSet) (op : Op) : (s.step op).2.build = s.build := by
  cases op with
  | install way tag dirty =>
    simp only [step]
    split
    · rename_i installed
      exact build_install installed
    · rfl
  | markDirty way | pin way | unpin way => exact build_change ..
  | invalidate way => exact build_invalidate s way
  | record outcome =>
    simp only [step]
    split
    · rename_i recorded
      exact build_record recorded
    · rfl
  | selectVictim =>
    have kept := build_selectVictim s
    simp only [step]
    split
    all_goals
      rename_i selected
      rwa [selected] at kept

theorem build_selectWay (s : CacheSet) : s.selectWay.2.build = s.build := by
  unfold selectWay
  split
  · rfl
  · exact build_selectVictim s

theorem build_hit (s : CacheSet) (way : Nat) (write : Bool) :
    (s.hit way write).set.build = s.build := by
  have written : (if write then (s.markDirty way).2 else s).build = s.build := by
    split
    · exact build_change ..
    · rfl
  unfold hit
  dsimp only
  split
  · exact written
  · rename_i recorded
    exact (build_record recorded).trans written

theorem build_fill (s : CacheSet) (way tag : Nat) (write : Bool) :
    (s.fill way tag write).set.build = s.build := by
  unfold fill
  dsimp only
  split
  · rfl
  · rename_i installed
    split
    · exact build_install installed
    · rename_i recorded
      exact (build_record recorded).trans (build_install installed)

/-- No access changes what the set was built with. -/
theorem build_access (s : CacheSet) (tag : Nat) (write : Bool) :
    (s.access tag write).set.build = s.build := by
  unfold access
  split
  · exact build_hit ..
  · have chosen := build_selectWay s
    split
    · rename_i failed
      rwa [failed] at chosen
    · rename_i selected
      rw [selected] at chosen
      exact (build_fill ..).trans chosen

@[simp] theorem build_flush (s : CacheSet) : s.flush.2.build = s.build := by
  simp [flush, build, ways]

end CacheSet

end SetAssociative
