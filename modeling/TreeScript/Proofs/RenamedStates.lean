import TreeScript.Proofs.Journals
import TreeScript.Proofs.Renaming
import TreeScript.Proofs.ScopeChains

/-!
# States up to renaming

Two states are alike when the scopes of the one are scopes of the other under other places, and so
are those that are still to come. The second state may have further scopes, to which nothing leads.
The runtimes do the same, and the journal of the first one has the same notes in it. Names refer to
the same things in alike states, and a change with renamed places keeps them alike.
-/

namespace TreeScript

/-! ### Tables -/

namespace Table

variable {α β : Type}

/-- The table with other values in the same places. -/
def mapValues (f : α → β) (table : Table α) : Table β := table.map fun entry => (entry.1, f entry.2)

theorem find?_mapValues (f : α → β) (name : String) (table : Table α) :
    (table.mapValues f).find? name = (table.find? name).map f := by
  induction table with
  | nil => rfl
  | cons entry rest ih =>
      obtain ⟨key, value⟩ := entry
      simp only [mapValues, List.map_cons, find?] at ih ⊢
      split
      · rfl
      · exact ih

theorem insert_mapValues (f : α → β) (name : String) (value : α) (table : Table α) :
    (table.mapValues f).insert name (f value) = (table.insert name value).mapValues f := by
  induction table with
  | nil => rfl
  | cons entry rest ih =>
      obtain ⟨key, old⟩ := entry
      simp only [mapValues, List.map_cons, insert] at ih ⊢
      split
      · rfl
      · rw [ih, List.map_cons]

@[simp] theorem names_mapValues (f : α → β) (table : Table α) :
    (table.mapValues f).names = table.names := by
  simp [mapValues, names]

@[simp] theorem has_mapValues (f : α → β) (name : String) (table : Table α) :
    (table.mapValues f).has name = table.has name := by
  rw [has, find?_mapValues, Option.isSome_map, has]

end Table

/-! ### Heaps -/

def Scope.rename (r : Renaming) (scope : Scope) : Scope where
  functions := scope.functions.mapValues (·.rename r)
  children := scope.children.mapValues r.scope
  returned := scope.returned.rename r
  parent := scope.parent.map r.scope

/-- The second heap has the scopes of the first one in other places. Further scopes get the places
that the renaming has for them. -/
structure Heap.Alike (r : Renaming) (a b : Heap) : Prop where
  ordered : a.Ordered
  fresh : ∀ i, r.scope (a.scopes.size + i) = b.scopes.size + i
  get : ∀ id, b.get (r.scope id) = (a.get id).rename r

namespace Heap.Alike

variable {r : Renaming} {a b : Heap}

theorem size_eq (alike : a.Alike r b) : b.scopes.size = r.scope a.scopes.size :=
  (alike.fresh 0).symm

theorem lt_iff (alike : a.Alike r b) (id : ScopeId) :
    r.scope id < b.scopes.size ↔ id < a.scopes.size := by
  constructor
  · intro inside
    refine Nat.lt_of_not_le fun old => ?_
    have eq := alike.fresh (id - a.scopes.size)
    rw [Nat.add_sub_cancel' old] at eq
    rw [eq] at inside
    exact absurd inside (Nat.not_lt_of_le (Nat.le_add_right _ _))
  · intro inside
    refine Nat.lt_of_not_le fun old => ?_
    have eq := alike.fresh (r.scope id - b.scopes.size)
    rw [Nat.add_sub_cancel' old] at eq
    rw [← r.scope_injective eq] at inside
    exact absurd inside (Nat.not_lt_of_le (Nat.le_add_right _ _))

theorem chainUpTo (alike : a.Alike r b) {count : Nat} {id : ScopeId} (enough : id < count) :
    b.chainUpTo count (r.scope id) = (a.chain id).map r.scope := by
  induction id using Nat.strongRecOn generalizing count with
  | ind id ih =>
      cases count with
      | zero => exact absurd enough (Nat.not_lt_zero id)
      | succ more =>
          rw [Heap.chainUpTo, alike.get]
          cases found : (a.get id).parent with
          | none => simp [Scope.rename, found, chain_of_no_parent found]
          | some parent =>
              have older := alike.ordered id parent found
              have rest := ih parent older (Nat.lt_of_lt_of_le older (Nat.le_of_lt_succ enough))
              simp [Scope.rename, found, alike.ordered.chain_of_parent found, rest]

theorem chain (alike : a.Alike r b) (id : ScopeId) :
    b.chain (r.scope id) = (a.chain id).map r.scope :=
  alike.chainUpTo (Nat.lt_succ_of_le (r.le_scope id))

@[simp] theorem hasLocal (alike : a.Alike r b) (id : ScopeId) (name : String) :
    b.hasLocal (r.scope id) name = a.hasLocal id name := by
  simp [Heap.hasLocal, alike.get, Scope.rename]

theorem owner? (alike : a.Alike r b) (id : ScopeId) (name : String) :
    b.owner? (r.scope id) name = (a.owner? id name).map r.scope := by
  have here : (fun scope => b.hasLocal scope name) ∘ r.scope = fun scope => a.hasLocal scope name :=
    funext fun scope => alike.hasLocal scope name
  rw [Heap.owner?, alike.chain, List.find?_map, here]
  rfl

theorem function? (alike : a.Alike r b) (id : ScopeId) (name : String) :
    b.function? (r.scope id) name = (a.function? id name).map (·.rename r) := by
  rw [Heap.function?, alike.owner?, Heap.function?]
  cases a.owner? id name with
  | none => rfl
  | some owner => simp [alike.get, Scope.rename, Table.find?_mapValues]

theorem find_child (alike : a.Alike r b) (id : ScopeId) (name : String) :
    (b.get (r.scope id)).children.find? name = ((a.get id).children.find? name).map r.scope := by
  rw [alike.get, Scope.rename, Table.find?_mapValues]

theorem namespace? (alike : a.Alike r b) (id : ScopeId) (name : String) :
    b.namespace? (r.scope id) name = (a.namespace? id name).map r.scope := by
  rw [Heap.namespace?, alike.chain, List.findSome?_map, Heap.namespace?, List.map_findSome?]
  exact congrArg (List.findSome? · _) (funext fun scope => alike.find_child scope name)

theorem findNamespace? (alike : a.Alike r b) (id : ScopeId) (segments : List String) :
    b.findNamespace? (r.scope id) segments = (a.findNamespace? id segments).map r.scope := by
  induction segments with
  | nil => rfl
  | cons last rest ih =>
      cases rest with
      | nil => exact alike.namespace? id last
      | cons other rest =>
          simp only [Heap.findNamespace?, alike.namespace?, ih]
          cases a.namespace? id (joinSegments (last :: other :: rest).reverse) with
          | some space => rfl
          | none =>
              cases a.findNamespace? id (other :: rest) with
              | none => rfl
              | some outer => simp [alike.find_child]

/-- A name refers to the same thing in alike heaps. -/
theorem resolve (alike : a.Alike r b) (id : ScopeId) (name : String) :
    b.resolve (r.scope id) name = (a.resolve id name).map (·.rename r) := by
  rw [Heap.resolve, alike.function?, Heap.resolve]
  cases a.function? id name with
  | some entry => rfl
  | none =>
      simp only [Option.map_none]
      split
      · rename_i member last rest segments
        rw [alike.findNamespace?]
        cases a.findNamespace? id (last :: rest) with
        | none => rfl
        | some space =>
            simp only [Option.map_some, alike.get, Scope.rename, Table.find?_mapValues]
            cases (a.get space).functions.find? member <;> rfl
      · rfl

theorem alloc (alike : a.Alike r b) {parent : ScopeId} (inside : parent < a.scopes.size) :
    (a.alloc { parent := some parent }).2.Alike r
      (b.alloc { parent := some (r.scope parent) }).2 where
  ordered id above found := by
    rw [Heap.get_alloc] at found
    split at found
    · rename_i new
      cases found
      exact new ▸ inside
    · exact alike.ordered id above found
  fresh i := by
    rw [Heap.size_alloc, Heap.size_alloc, Nat.add_assoc, Nat.add_assoc]
    exact alike.fresh (1 + i)
  get id := by
    have same : r.scope id = b.scopes.size ↔ id = a.scopes.size := by
      rw [alike.size_eq]
      exact ⟨r.scope_injective, congrArg r.scope⟩
    rw [Heap.get_alloc, Heap.get_alloc]
    by_cases new : id = a.scopes.size
    · rw [if_pos new, if_pos (same.mpr new)]
      rfl
    · rw [if_neg new, if_neg fun eq => new (same.mp eq)]
      exact alike.get id

theorem modify (alike : a.Alike r b) (id : ScopeId) {change change' : Scope → Scope}
    (parent : ∀ scope, (change scope).parent = scope.parent)
    (same : ∀ scope, change' (scope.rename r) = (change scope).rename r) :
    (a.modify id change).Alike r (b.modify (r.scope id) change') where
  ordered other above found := by
    rw [a.view_modify Scope.parent id parent other] at found
    exact alike.ordered other above found
  fresh i := by
    rw [Heap.size_modify, Heap.size_modify]
    exact alike.fresh i
  get other := by
    by_cases eq : other = id
    · subst eq
      by_cases inside : other < a.scopes.size
      · rw [Heap.get_modify_self _ _ _ inside,
          Heap.get_modify_self _ _ _ ((alike.lt_iff other).mpr inside), alike.get, same]
      · have outside : ¬ r.scope other < b.scopes.size :=
          fun h => inside ((alike.lt_iff other).mp h)
        rw [Heap.get_of_size_le _ (by simpa using outside),
          Heap.get_of_size_le _ (by simpa using inside)]
        rfl
    · rw [Heap.get_modify_of_ne _ _ eq,
        Heap.get_modify_of_ne _ _ fun h => eq (r.scope_injective h)]
      exact alike.get other

end Heap.Alike

namespace Layout

variable {r : Renaming} {a b : Heap}

mutual

/-- An object has the same text in alike heaps. -/
theorem objectText_alike (alike : a.Alike r b) (width level : Nat) (object : Object) :
    objectText b width level (object.rename r) = objectText a width level object := by
  cases object with
  | value value => cases value <;> simp [Object.rename, Value.rename, objectText, valueText]
  | scope id => simp [Object.rename, objectText, alike.get, scopeText, Scope.rename]
  | tree node => simp [Object.rename, objectText]
  | function mark entry =>
      simp only [Object.rename, objectText]
      exact entryText_alike alike width level entry
  | absent | plain => simp [Object.rename, objectText]

theorem entryText_alike (alike : a.Alike r b) (width level : Nat) (entry : Entry) :
    entryText b width level (entry.rename r) = entryText a width level entry := by
  cases entry with
  | custom closure body =>
      simp only [Entry.rename, entryText]
      rw [objectText_alike alike width level body]
  | builtin | host | inert => simp [Entry.rename, entryText]

end

theorem shown_alike (alike : a.Alike r b) (room width level : Nat) (object : Object) :
    shown b room width level (object.rename r) = shown a room width level object := by
  rw [shown, objectObstacle?_rename, objectText_alike alike, shown]

end Layout

/-! ### States -/

/-- The second runtime prints and reports like the first one and does the same. -/
structure Runtime.Alike (r : Renaming) (x y : Runtime) : Prop where
  output : y.output = x.output
  reports : y.reports = x.reports
  calls : y.calls = x.calls.map (·.rename r)
  current : y.current = x.current.rename r

/-- The second state is the first one under other names. Texts are noted in the journal of the first
runtime, if anywhere. -/
structure State.Alike (r : Renaming) (a b : State) : Prop where
  heap : a.heap.Alike r b.heap
  size : b.runtimes.size = a.runtimes.size
  runtime : ∀ id, (a.runtime id).Alike r (b.runtime id)
  output : ∀ id owner, (a.runtime id).output = .journal owner → owner = 0
  noted : b.journal (b.runtime 0).journal = a.journal (a.runtime 0).journal

def Change.rename (r : Renaming) : Change → Change
  | visit runtime node => visit runtime (node.rename r)
  | openScope parent => openScope (r.scope parent)
  | write slot closure body => write (slot.rename r) (r.scope closure) (body.rename r)
  | setReturned scope returned => setReturned (r.scope scope) (returned.rename r)
  | attach scope name child => attach (r.scope scope) name (r.scope child)
  | c => c

/-- A change that has to do neither with files nor with modules. -/
def Change.IsPlain : Change → Prop
  | visit .. | trace _ | openScope _ | write .. | setReturned .. | attach .. | print .. => True
  | _ => False

def Frame.rename (r : Renaming) : Frame → Frame
  | call runtime node => call runtime (node.rename r)
  | builtin invocation => builtin (invocation.rename r)
  | loading runtime place => loading runtime place

def Interrupt.rename (r : Renaming) : Interrupt → Interrupt
  | .error fatal => .error { fatal with node := fatal.node.rename r }
  | .failure reason => .failure reason
  | .tooDeep => .tooDeep

variable {r : Renaming}

theorem callNames_rename (calls : List Node) :
    (calls.map (·.rename r)).filterMap Node.callName? = calls.filterMap Node.callName? := by
  rw [List.filterMap_map]
  exact congrArg (List.filterMap · calls) (funext Node.callName?_rename)

/-- The error of a cause is about the same node and the same calls. -/
theorem Runtime.Alike.error {x y : Runtime} (alike : x.Alike r y) (cause : Cause) (node : Node) :
    Interrupt.error (y.error cause (node.rename r)) =
      (Interrupt.error (x.error cause node)).rename r := by
  have trace : y.calls.reverse.filterMap Node.callName? =
      x.calls.reverse.filterMap Node.callName? := by
    rw [alike.calls, ← List.map_reverse, callNames_rename]
  have head : y.calls.headD y.current = (x.calls.headD x.current).rename r := by
    rw [alike.calls, alike.current]
    cases x.calls <;> rfl
  cases node <;> simp only [Runtime.error, Node.rename, Interrupt.rename, trace, head]

namespace State.Alike

variable {a b after after' : State}

/-- What happens to no scope and to no runtime, and makes no note, keeps states alike. -/
theorem same (alike : a.Alike r b) (heap : after.heap = a.heap) (heap' : after'.heap = b.heap)
    (silent : a.Silent after) (silent' : b.Silent after')
    (runtimes : after.runtimes = a.runtimes) (runtimes' : after'.runtimes = b.runtimes) :
    after.Alike r after' where
  heap := by
    rw [heap, heap']
    exact alike.heap
  size := by rw [silent'.size, silent.size, alike.size]
  runtime id := by
    rw [State.runtime, runtimes, State.runtime, runtimes']
    exact alike.runtime id
  output id owner := by
    rw [silent.output]
    exact alike.output id owner
  noted := by rw [silent'.own, silent.own, silent'.journal, silent.journal, alike.noted]

theorem record (alike : a.Alike r b) {event : Event}
    (other : ∀ owner note, event ≠ .noted owner note) :
    (a.record event).Alike r (b.record event) :=
  alike.same rfl rfl (a.silent_record other) (b.silent_record other) rfl rfl

theorem withHeap (alike : a.Alike r b) {heap heap' : Heap} (same : heap.Alike r heap') :
    ({ a with heap } : State).Alike r { b with heap := heap' } :=
  ⟨same, alike.size, alike.runtime, alike.output, alike.noted⟩

/-- A runtime goes on to something else. -/
theorem modifyRuntime (alike : a.Alike r b) (id : RuntimeId) {change change' : Runtime → Runtime}
    (stays : ∀ runtime : Runtime, runtime.Stays (change runtime))
    (stays' : ∀ runtime : Runtime, runtime.Stays (change' runtime))
    (same : ∀ x y : Runtime, x.Alike r y → (change x).Alike r (change' y)) :
    (a.modifyRuntime id change).Alike r (b.modifyRuntime id change') where
  heap := alike.heap
  size := by rw [size_modifyRuntime, size_modifyRuntime, alike.size]
  runtime other := by
    by_cases inside : id < a.runtimes.size
    · by_cases eq : other = id
      · subst eq
        rw [a.runtime_modifyRuntime_self _ inside,
          b.runtime_modifyRuntime_self _ (alike.size ▸ inside)]
        exact same _ _ (alike.runtime other)
      · rw [a.runtime_modifyRuntime_of_ne _ eq, b.runtime_modifyRuntime_of_ne _ eq]
        exact alike.runtime other
    · have outside := Nat.le_of_not_lt inside
      rw [a.modifyRuntime_of_size_le _ outside,
        b.modifyRuntime_of_size_le _ (alike.size ▸ outside)]
      exact alike.runtime other
  output other owner := by
    rw [a.view_modifyRuntime Runtime.output id fun runtime => (stays runtime).output]
    exact alike.output other owner
  noted := by
    rw [b.view_modifyRuntime Runtime.journal id fun runtime => (stays' runtime).journal,
      a.view_modifyRuntime Runtime.journal id fun runtime => (stays runtime).journal]
    exact alike.noted

theorem note (alike : a.Alike r b) (note : Note) : (a.note 0 note).Alike r (b.note 0 note) where
  heap := alike.heap
  size := alike.size
  runtime := alike.runtime
  output := alike.output
  noted := by
    change (b.note 0 note).journal (b.runtime 0).journal =
      (a.note 0 note).journal (a.runtime 0).journal
    rw [journal_note, journal_note, if_pos rfl, if_pos rfl, alike.noted]

theorem print (alike : a.Alike r b) (id : RuntimeId) (text : String) :
    (a.print id text).Alike r (b.print id text) := by
  unfold State.print
  rw [(alike.runtime id).output]
  cases output : (a.runtime id).output with
  | journal owner =>
      obtain rfl := alike.output id owner output
      exact alike.note _
  | sink => exact alike.record (by simp)

theorem reportError (alike : a.Alike r b) (id : RuntimeId) (cause : Cause) :
    (a.reportError id cause).Alike r (b.reportError id cause) := by
  unfold State.reportError
  rw [(alike.runtime id).reports]
  split
  · exact alike.record (by simp)
  · exact alike

theorem openScope (alike : a.Alike r b) {parent : ScopeId} (inside : parent < a.heap.scopes.size) :
    (Change.apply a (.openScope parent)).Alike r (Change.apply b (.openScope (r.scope parent))) :=
  alike.withHeap (alike.heap.alloc inside)

theorem visit (alike : a.Alike r b) (id : RuntimeId) (node : Node) :
    (Change.apply a (.visit id node)).Alike r (Change.apply b (.visit id (node.rename r))) := by
  simp only [Change.apply]
  refine alike.modifyRuntime id (fun _ => rfl) (fun _ => rfl) fun _ _ same => ?_
  exact ⟨same.output, same.reports, same.calls, rfl⟩

/-- The same change under other names keeps states alike. -/
theorem change (alike : a.Alike r b) {c : Change} (plain : c.IsPlain) (safe : c.Safe false a) :
    (c.apply a).Alike r ((c.rename r).apply b) := by
  cases c with
  | visit id node => exact alike.visit id node
  | openScope parent => exact alike.openScope safe
  | trace line => exact alike.record (by simp)
  | write slot closure body =>
      refine alike.withHeap (alike.heap.modify slot.scope (fun _ => rfl) fun scope => ?_)
      exact congrArg (fun functions => { scope.rename r with functions })
        (Table.insert_mapValues (·.rename r) slot.name (.custom closure body) scope.functions)
  | setReturned scope returned =>
      exact alike.withHeap (alike.heap.modify scope (fun _ => rfl) fun _ => rfl)
  | attach scope name child =>
      refine alike.withHeap (alike.heap.modify scope (fun _ => rfl) fun scope => ?_)
      exact congrArg (fun children => { scope.rename r with children })
        (Table.insert_mapValues r.scope name child scope.children)
  | print id text => exact alike.print id text
  | mark | addRuntime | begin | finish | keep | register | runFactory | build | settle =>
      exact plain.elim

theorem enter (alike : a.Alike r b) (frame : Frame) :
    (frame.enter a).Alike r ((frame.rename r).enter b) := by
  cases frame with
  | call id node =>
      simp only [Frame.rename, Frame.enter]
      refine alike.modifyRuntime id (fun _ => rfl) (fun _ => rfl) fun _ _ same => ?_
      exact ⟨same.output, same.reports, congrArg (node.rename r :: ·) same.calls, same.current⟩
  | builtin invocation => exact alike
  | loading id place =>
      exact alike.same rfl rfl (.same rfl rfl rfl) (.same rfl rfl rfl) rfl rfl

theorem leave (alike : a.Alike r b) (frame : Frame) :
    (frame.leave a).Alike r ((frame.rename r).leave b) := by
  cases frame with
  | call id node =>
      simp only [Frame.rename, Frame.leave]
      refine alike.modifyRuntime id (fun _ => rfl) (fun _ => rfl) fun x y same => ?_
      refine ⟨same.output, same.reports, ?_, same.current⟩
      rw [same.calls, List.map_tail]
  | builtin invocation => exact alike
  | loading id place =>
      exact alike.same rfl rfl (.same rfl rfl rfl) (.same rfl rfl rfl) rfl rfl

end State.Alike

end TreeScript
