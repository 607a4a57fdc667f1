import SetAssociative.Cache.Operations
import SetAssociative.Proofs.LineRequests

/-! A cache sends each operation on an address to one set, as a request about the tag of
the address, and leaves every other set alone. A flush goes to all sets and a reset to
none. What holds of all sets when the cache is built, and is kept by requests and
flushes of a single set, therefore holds of all sets after every run. -/
namespace SetAssociative

theorem Stats.add_none (s : Stats) : s + {} = s := rfl

/-- The answer of the cache to which the reply of a set amounts. -/
def Reply.answer (index : Nat) : Reply → Cache.Answer
  | .placed result => .accessed (result.map fun p =>
      { hit := p.hit, set := index, way := p.way, evicted := p.evicted })
  | .found held => .found held
  | .removed line => .removed line

namespace Cache
variable {c : Cache} {address : UInt64} {request : Request} {index : Nat}

/-- The request that an operation on an address comes to. -/
def Op.request? : Op → Option (UInt64 × Request)
  | .access address write => some (address, .access write)
  | .pin address => some (address, .setPinned true)
  | .unpin address => some (address, .setPinned false)
  | .invalidate address => some (address, .invalidate)
  | .flush | .resetStats => none

/-- What the set of an address responds to a request. -/
def response (c : Cache) (address : UInt64) (request : Request) : Response :=
  (c.setOf address).serve (c.locate address).2 request

theorem getElem?_setOf (c : Cache) (address : UInt64) :
    c.sets[(c.locate address).1]? = some (c.setOf address) :=
  Array.getElem?_eq_getElem (c.locate_lt address)

/-- What stands in the place of an address is its set. -/
theorem setOf_eq_of_getElem? {s : CacheSet} (there : c.sets[(c.locate address).1]? = some s) :
    c.setOf address = s := Option.some.inj ((c.getElem?_setOf address).symm.trans there)

theorem update_self (c : Cache) (address : UInt64) : c.update address (c.setOf address) {} = c := by
  cases c
  simp only [update, setOf, Array.set_getElem_self, Stats.add_none]

/-- To pin or to unpin the line of an address is one request to its set. -/
theorem change_eq_update (c : Cache) (address : UInt64) (pinned : Bool) :
    let changed := c.change address fun s way => if pinned then s.pin way else s.unpin way
    let response := c.response address (.setPinned pinned)
    (Answer.found changed.1, changed.2) = (response.reply.answer (c.locate address).1,
      c.update address response.set response.count) := by
  cases found : c.find? address with
  | none =>
    have missing : (c.setOf address).find? (c.locate address).2 = none := found
    simp only [change, found, response, CacheSet.serve, missing, update_self, Reply.answer]
  | some way =>
    have there : (c.setOf address).find? (c.locate address).2 = some way := found
    simp only [change, found, response, CacheSet.serve, there, Reply.answer]

/-- An operation on an address is one request to one set. -/
theorem step_of_request? {op : Op} (asked : op.request? = some (address, request)) :
    c.step op = ((c.response address request).reply.answer (c.locate address).1,
      c.update address (c.response address request).set (c.response address request).count) := by
  cases op with
  | access target write =>
    cases asked
    rfl
  | pin target =>
    cases asked
    exact c.change_eq_update address true
  | unpin target =>
    cases asked
    exact c.change_eq_update address false
  | invalidate target =>
    cases asked
    cases found : c.find? address with
    | none =>
      have missing : (c.setOf address).find? (c.locate address).2 = none := found
      simp only [step, invalidate, found, response, CacheSet.serve, missing, update_self,
        Reply.answer]
    | some way =>
      have there : (c.setOf address).find? (c.locate address).2 = some way := found
      simp only [step, invalidate, found, response, CacheSet.serve, there, Reply.answer]
  | flush | resetStats => cases asked

/-- An access reports the place that its set replied. -/
theorem access_of_placed {write : Bool} {p : Placement}
    (placed : (c.response address (.access write)).reply = .placed (.ok p)) :
    (c.access address write).1 = .ok
      { hit := p.hit, set := (c.locate address).1, way := p.way, evicted := p.evicted } := by
  have served : ((c.setOf address).access (c.locate address).2 write).result = .ok p :=
    Reply.placed.inj placed
  rw [access, served, Except.map]

/-- Every operation is a request, a flush or a reset. -/
theorem Op.request?_or (op : Op) :
    (∃ address request, op.request? = some (address, request)) ∨
      op = .flush ∨ op = .resetStats := by
  cases op <;> simp [request?]

theorem getElem?_sets_update {s : CacheSet} {count : Stats} :
    (c.update address s count).sets[index]? =
      if index = (c.locate address).1 then some s else c.sets[index]? := by
  simp only [update, Array.getElem?_set]
  by_cases same : (c.locate address).1 = index
  · simp [same]
  · simp [same, Ne.symm same]

theorem locate_update (c : Cache) (address : UInt64) (s : CacheSet) (count : Stats) :
    (c.update address s count).locate = c.locate := by
  funext place
  simp only [update, locate, Array.size_set]

/-- A replaced set is the set of its address from then on. -/
theorem setOf_update (c : Cache) (address : UInt64) (s : CacheSet) (count : Stats) :
    (c.update address s count).setOf address = s := by
  apply setOf_eq_of_getElem?
  rw [locate_update, getElem?_sets_update, if_pos rfl]

theorem getElem?_sets_flush :
    c.flush.2.sets[index]? = c.sets[index]?.map fun s => s.flush.2 := by
  simp [flush]

/-- Every operation leaves the length of lines and the number of sets as they were. -/
theorem shape_step (c : Cache) (op : Op) :
    (c.step op).2.lineBytes = c.lineBytes ∧ (c.step op).2.sets.size = c.sets.size := by
  rcases op.request?_or with ⟨address, request, asked⟩ | rfl | rfl
  · rw [step_of_request? asked]
    simp [update]
  · simp [step, flush]
  · exact ⟨rfl, rfl⟩

/-- An address belongs to the same set and the same tag for ever. -/
@[simp] theorem locate_step (c : Cache) (op : Op) (address : UInt64) :
    (c.step op).2.locate address = c.locate address := by
  obtain ⟨lineBytes, size⟩ := c.shape_step op
  simp only [locate, lineBytes, size]

theorem locate_flush (c : Cache) : c.flush.2.locate = c.locate := funext (c.locate_step .flush)

theorem shape_run (c : Cache) (ops : List Op) :
    (c.run ops).2.lineBytes = c.lineBytes ∧ (c.run ops).2.sets.size = c.sets.size := by
  induction ops generalizing c with
  | nil => exact ⟨rfl, rfl⟩
  | cons op ops ih =>
    obtain ⟨lineBytes, size⟩ := ih (c.step op).2
    exact ⟨lineBytes.trans (c.shape_step op).1, size.trans (c.shape_step op).2⟩

@[simp] theorem locate_run (c : Cache) (ops : List Op) (address : UInt64) :
    (c.run ops).2.locate address = c.locate address := by
  obtain ⟨lineBytes, size⟩ := c.shape_run ops
  simp only [locate, lineBytes, size]

theorem run_append (c : Cache) (ops more : List Op) :
    c.run (ops ++ more) =
      ((c.run ops).1 ++ ((c.run ops).2.run more).1, ((c.run ops).2.run more).2) := by
  induction ops generalizing c with
  | nil => rfl
  | cons op ops ih => rw [List.cons_append, run, ih, run, List.cons_append]

/-- A property of sets and their indices that every set of the cache has. -/
def Everywhere (c : Cache) (P : Nat → CacheSet → Prop) : Prop :=
  ∀ index s, c.sets[index]? = some s → P index s

variable {P : Nat → CacheSet → Prop}

theorem Everywhere.setOf (everywhere : c.Everywhere P) (address : UInt64) :
    P (c.locate address).1 (c.setOf address) :=
  everywhere _ _ (c.getElem?_setOf address)

/-- A step keeps what a request keeps in the set that it goes to, and a flush in each. -/
theorem Everywhere.step (everywhere : c.Everywhere P)
    (serve : ∀ address request s, P (c.locate address).1 s →
      P (c.locate address).1 (s.serve (c.locate address).2 request).set)
    (flush : ∀ index s, P index s → P index s.flush.2) (op : Op) :
    (c.step op).2.Everywhere P := by
  intro index s there
  rcases op.request?_or with ⟨address, request, asked⟩ | rfl | rfl
  · rw [step_of_request? asked, getElem?_sets_update] at there
    split at there
    · rename_i same
      cases there
      subst same
      exact serve address request _ (everywhere.setOf address)
    · exact everywhere index s there
  · simp only [Cache.step, getElem?_sets_flush] at there
    obtain ⟨before, here, rfl⟩ := Option.map_eq_some_iff.mp there
    exact flush index before (everywhere index before here)
  · exact everywhere index s there

theorem Everywhere.run (everywhere : c.Everywhere P)
    (serve : ∀ address request s, P (c.locate address).1 s →
      P (c.locate address).1 (s.serve (c.locate address).2 request).set)
    (flush : ∀ index s, P index s → P index s.flush.2) (ops : List Op) :
    (c.run ops).2.Everywhere P := by
  induction ops generalizing c with
  | nil => exact everywhere
  | cons op ops ih =>
    refine ih (everywhere.step serve flush op) ?_
    simpa only [locate_step] using serve

/-- Every set of the cache is sound. -/
def Sound (c : Cache) : Prop := c.Everywhere fun _ s => s.Sound

theorem Sound.step (sound : c.Sound) (op : Op) : (c.step op).2.Sound :=
  Everywhere.step sound (fun _ _ _ kept => kept.serve _ _) (fun _ _ kept => kept.flush) op

theorem Sound.run (sound : c.Sound) (ops : List Op) : (c.run ops).2.Sound :=
  Everywhere.run sound (fun _ _ _ kept => kept.serve _ _) (fun _ _ kept => kept.flush) ops

/-- An operation on an address answers as the set answers that it goes to, and has there
one of the effects on a sound set. -/
theorem Sound.effect_step (sound : c.Sound) {op : Op}
    (asked : op.request? = some (address, request)) :
    ∃ response, (c.setOf address).Effect (c.locate address).2 request response ∧
      c.step op = (response.reply.answer (c.locate address).1,
        c.update address response.set response.count) :=
  ⟨_, CacheSet.effect_serve (Everywhere.setOf sound address).fits _ _, step_of_request? asked⟩

end Cache

end SetAssociative
