import Mathlib.Data.List.AList
import Veidrodelis.Lib.History
import Veidrodelis.Lib.Terms
import Veidrodelis.TSProj.Watch

/-!
# The registry

`lib/veidrodelis/registry.ex`: which process stands for which id. The handles are in an ETS table,
by id; who owns an id, with the reference of the monitor, is in the state of the server. The ids are
any terms: the table and the patterns tell them apart by `===`, one of the guards by `==`
(`LooseEq`).
-/

namespace Veidrodelis

/-- The table and the state of the server. A reference is the number of monitors that were made
before. -/
structure Registry (Id Handle : Type) where
  table : AList fun _ : Id => Handle
  instances : Std.ExtTreeMap Pid (Id × Nat) compare
  monitors : Nat

namespace Registry

variable {Id Handle : Type}

/-- The calls that the server takes. -/
inductive Request (Id Handle : Type) where
  | register (pid : Pid) (id : Id) (handle : Handle)
  | unregister (pid : Pid) (id : Id)
  | unknown

/-- The replies: `:ok`, or one of the errors. -/
inductive Reply (Id : Type) where
  | ok
  | alreadyRegisteredWithDifferentId (id otherId : Id) (pid : Pid)
  | idAlreadyRegistered (id : Id) (pid : Pid)
  | notRegistered (pid : Pid)
  | unknownCall
  deriving DecidableEq, Repr

/-- A call, or the message that a monitored process is down. -/
inductive Event (Id Handle : Type) where
  | call (request : Request Id Handle)
  | down (ref : Nat) (pid : Pid)

/-- `init`. -/
def init : Registry Id Handle := ⟨∅, ∅, 0⟩

/-- The process stands for the id. -/
def Owns (r : Registry Id Handle) (pid : Pid) (id : Id) : Prop :=
  ∃ ref, r.instances[pid]? = some (id, ref)

/-- A process that registers owns its id. -/
lemma owns_insert {r : Registry Id Handle} {pid pid' : Pid} {id id' : Id}
    {table : AList fun _ : Id => Handle} {ref count : Nat} :
    (Registry.mk table (r.instances.insert pid (id, ref)) count).Owns pid' id' ↔
      if pid' = pid then id' = id else r.Owns pid' id' := by
  unfold Owns
  rw [Std.ExtTreeMap.getElem?_insert]
  by_cases same : pid' = pid
  · subst same
    simp [eq_comm]
  · simp [same, Ne.symm same]

/-- A process that is gone owns nothing. -/
lemma owns_erase {r : Registry Id Handle} {pid pid' : Pid} {id' : Id}
    {table : AList fun _ : Id => Handle} {count : Nat} :
    (Registry.mk table (r.instances.erase pid) count).Owns pid' id' ↔ pid' ≠ pid ∧
      r.Owns pid' id' := by
  unfold Owns
  rw [Std.ExtTreeMap.getElem?_erase]
  by_cases same : pid' = pid
  · simp [same]
  · simp [same, Ne.symm same]

variable [DecidableEq Id]

/-- `lookup`. -/
def lookup (r : Registry Id Handle) (id : Id) : Option Handle := r.table.lookup id

/-- The last clause of `register`: `:ets.insert_new` and, if the id was free, a monitor. -/
def claim (r : Registry Id Handle) (pid : Pid) (id : Id) (handle : Handle) :
    Reply Id × Registry Id Handle :=
  if id ∈ r.table then (.idAlreadyRegistered id pid, r)
  else (.ok, ⟨r.table.insert id handle, r.instances.insert pid (id, r.monitors), r.monitors + 1⟩)

/-- `handle_call({:register, pid, id, handle})`. -/
def register [LooseEq Id] (r : Registry Id Handle) (pid : Pid) (id : Id) (handle : Handle) :
    Reply Id × Registry Id Handle :=
  match r.instances[pid]? with
  | some (otherId, _) =>
    if ¬ LooseEq.loosely otherId id then (.alreadyRegisteredWithDifferentId id otherId pid, r)
    else if otherId = id then (.ok, { r with table := r.table.insert id handle })
    else r.claim pid id handle
  | none => r.claim pid id handle

/-- `handle_call({:unregister, pid, id})`. -/
def unregister (r : Registry Id Handle) (pid : Pid) (id : Id) : Reply Id × Registry Id Handle :=
  match r.instances[pid]? with
  | some (otherId, _) =>
    if otherId = id then (.ok,
      { r with table := r.table.erase id, instances := r.instances.erase pid })
    else (.notRegistered pid, r)
  | none => (.notRegistered pid, r)

/-- `handle_call`. -/
def handleCall [LooseEq Id] (r : Registry Id Handle) : Request Id Handle →
    Reply Id × Registry Id Handle
  | .register pid id handle => r.register pid id handle
  | .unregister pid id => r.unregister pid id
  | .unknown => (.unknownCall, r)

/-- `handle_info({:DOWN, ref, :process, pid, _reason})`. -/
def handleInfo (r : Registry Id Handle) (ref : Nat) (pid : Pid) : Registry Id Handle :=
  match r.instances[pid]? with
  | some (id, current) =>
    if current = ref then { r with table := r.table.erase id, instances := r.instances.erase pid }
    else r
  | none => r

/-! ## Runs -/

/-- The registry in a run, with the last handle for which each process was answered `:ok`. -/
structure Traced (Id Handle : Type) where
  registry : Registry Id Handle
  latest : Pid → Option Handle

namespace Traced

/-- The server, before its first event. -/
def start : Traced Id Handle := ⟨init, fun _ => none⟩

/-- What a reply makes of the handles. -/
def record (latest : Pid → Option Handle) : Request Id Handle → Reply Id → Pid → Option Handle
  | .register pid _ handle, .ok => Function.update latest pid (some handle)
  | _, _ => latest

/-- One event. -/
def next [LooseEq Id] (t : Traced Id Handle) : Event Id Handle → Traced Id Handle
  | .call request =>
    ⟨(t.registry.handleCall request).2, record t.latest request (t.registry.handleCall request).1⟩
  | .down ref pid => { t with registry := t.registry.handleInfo ref pid }

/-- A process does not register, under a free id, an id that is `==` to the one it has but another
term. -/
def Exact [LooseEq Id] (t : Traced Id Handle) : Event Id Handle → Prop
  | .call (.register pid id _) =>
    ∀ otherId, t.registry.Owns pid otherId → LooseEq.loosely otherId id = true →
    otherId = id ∨ id ∈ t.registry.table
  | _ => True

/-- The table holds an id when exactly one process stands for it, with the handle which that process
registered last; no two processes stand for one id. -/
structure Bijective (t : Traced Id Handle) : Prop where
  exposed : ∀ id handle, t.registry.lookup id = some handle ↔
    ∃ pid, t.registry.Owns pid id ∧ (∀ pid', t.registry.Owns pid' id → pid' = pid) ∧
    t.latest pid = some handle
  owned : ∀ pid id, t.registry.Owns pid id → (t.registry.lookup id).isSome
  once : ∀ pid pid' id, t.registry.Owns pid id → t.registry.Owns pid' id → pid' = pid
  single : ∀ pid id id', t.registry.Owns pid id → t.registry.Owns pid id' → id' = id

end Traced

/-! ## What the requests do -/

section
variable {r r' : Registry Id Handle} {pid pid' : Pid} {id id' : Id} {handle : Handle}

/-- A registered handle is found under its id. -/
lemma lookup_insert {instances : Std.ExtTreeMap Pid (Id × Nat) compare} {count : Nat} :
    (Registry.mk (r.table.insert id handle) instances count).lookup id' =
      if id' = id then some handle else r.lookup id' := by
  unfold lookup
  split
  · rename_i same
    rw [same, AList.lookup_insert]
  · rename_i other
    exact AList.lookup_insert_ne other

/-- A handle that is gone is not found. -/
lemma lookup_erase {instances : Std.ExtTreeMap Pid (Id × Nat) compare} {count : Nat} :
    (Registry.mk (r.table.erase id) instances count).lookup id' =
      if id' = id then none else r.lookup id' := by
  unfold lookup
  split
  · rename_i same
    rw [same, AList.lookup_erase]
  · rename_i other
    exact AList.lookup_erase_ne other

/-- A call that is answered with an error changes nothing. -/
lemma handleCall_error [LooseEq Id] {request : Request Id Handle}
    (h : (r.handleCall request).1 ≠ .ok) : (r.handleCall request).2 = r := by
  -- the id is taken, or the claim is granted
  have claimed (pid : Pid) (id : Id) (handle : Handle) (h : (r.claim pid id handle).1 ≠ .ok) :
      (r.claim pid id handle).2 = r := by
    unfold claim at h ⊢
    split
    · rfl
    · rename_i free
      rw [if_neg free] at h
      exact absurd rfl h
  cases request with
  | register pid id handle =>
    simp only [handleCall, register] at h ⊢
    split
    · rename_i otherId ref owner
      rw [owner] at h
      simp only at h
      split
      · rfl
      · rename_i loosely
        rw [if_neg loosely] at h
        split
        · rename_i same
          rw [if_pos same] at h
          exact absurd rfl h
        · rename_i other
          rw [if_neg other] at h
          exact claimed pid id handle h
    · rename_i free
      rw [free] at h
      exact claimed pid id handle h
  | unregister pid id =>
    simp only [handleCall, unregister] at h ⊢
    split
    · rename_i otherId ref owner
      rw [owner] at h
      simp only at h
      split
      · rename_i same
        rw [if_pos same] at h
        exact absurd rfl h
      · rfl
    · rfl
  | unknown => rfl

/-- What a registration that is answered `:ok` does: the process owns the id or nothing, or it owns
an id that is `==` to the new one. -/
lemma register_ok [LooseEq Id] (h : (r.register pid id handle).1 = .ok) :
    (∀ id', (r.register pid id handle).2.lookup id' =
    if id' = id then some handle else r.lookup id') ∧
    (∀ pid' id', (r.register pid id handle).2.Owns pid' id' ↔
      if pid' = pid then id' = id else r.Owns pid' id') ∧
    ((∀ otherId, ¬ r.Owns pid otherId) ∧ id ∉ r.table ∨ r.Owns pid id ∨
      ∃ otherId, r.Owns pid otherId ∧ otherId ≠ id ∧ LooseEq.loosely otherId id = true ∧
      id ∉ r.table) := by
  have claimed (h : (r.claim pid id handle).1 = .ok) :
      (∀ id', (r.claim pid id handle).2.lookup id' =
      if id' = id then some handle else r.lookup id') ∧
      (∀ pid' id', (r.claim pid id handle).2.Owns pid' id' ↔
        if pid' = pid then id' = id else r.Owns pid' id') ∧ id ∉ r.table := by
    unfold claim at h ⊢
    split
    · rename_i taken
      rw [if_pos taken] at h
      cases h
    · rename_i free
      exact ⟨fun id' => lookup_insert, fun pid' id' => owns_insert, free⟩
  unfold register at h ⊢
  split
  · rename_i otherId ref owner
    rw [owner] at h
    simp only at h
    by_cases loosely : LooseEq.loosely otherId id = true
    · rw [if_neg (not_not_intro loosely)] at h ⊢
      split
      · rename_i same
        subst same
        refine ⟨fun id' => lookup_insert, fun pid' id' => ?_, .inr (.inl ⟨ref, owner⟩)⟩
        -- the process owns the id already
        show r.Owns pid' id' ↔ _
        split
        · rename_i same
          subst same
          constructor
          · rintro ⟨ref', owner'⟩
            rw [owner] at owner'
            exact (congrArg (fun p => p.1) (Option.some.inj owner')).symm
          · rintro rfl
            exact ⟨ref, owner⟩
        · rfl
      · rename_i other
        rw [if_neg other] at h
        obtain ⟨found, owners, free⟩ := claimed h
        exact ⟨found, owners, .inr (.inr ⟨otherId, ⟨ref, owner⟩, other, loosely, free⟩)⟩
    · rw [if_pos loosely] at h
      cases h
  · rename_i nobody
    rw [nobody] at h
    obtain ⟨found, owners, free⟩ := claimed h
    refine ⟨found, owners, .inl ⟨?_, free⟩⟩
    rintro otherId ⟨ref, owner⟩
    rw [nobody] at owner
    cases owner

/-- What takes the entry of a process away. -/
def Released (r r' : Registry Id Handle) (pid : Pid) (id : Id) : Prop :=
  r.Owns pid id ∧ (∀ id', r'.lookup id' = if id' = id then none else r.lookup id') ∧
    ∀ pid' id', r'.Owns pid' id' ↔ pid' ≠ pid ∧ r.Owns pid' id'

/-- To unregister releases the id, or changes nothing. -/
lemma unregister_released :
    (r.unregister pid id).2 = r ∨ r.Released (r.unregister pid id).2 pid id := by
  unfold unregister
  split
  · rename_i otherId ref owner
    split
    · rename_i same
      subst same
      exact .inr ⟨⟨ref, owner⟩, fun id' => lookup_erase, fun pid' id' => owns_erase⟩
    · exact .inl rfl
  · exact .inl rfl

/-- The message of the monitor that a process has takes its entry away. -/
lemma handleInfo_current {ref : Nat} (owner : r.instances[pid]? = some (id, ref)) :
    r.Released (r.handleInfo ref pid) pid id := by
  unfold handleInfo
  rw [owner]
  simp only [if_true]
  exact ⟨⟨ref, owner⟩, fun id' => lookup_erase, fun pid' id' => owns_erase⟩

/-- Any other message leaves everything. -/
lemma handleInfo_stale {ref : Nat} (stale : ∀ id, r.instances[pid]? ≠ some (id, ref)) :
    r.handleInfo ref pid = r := by
  unfold handleInfo
  split
  · rename_i id current owner
    rw [if_neg]
    rintro rfl
    exact stale id owner
  · rfl

end

namespace Traced

variable {t : Traced Id Handle} {r' : Registry Id Handle} {pid : Pid} {id : Id} {handle : Handle}

/-- An empty registry is a bijection. -/
lemma start_bijective : (start : Traced Id Handle).Bijective := by
  have nobody (pid : Pid) (id : Id) : ¬ (start : Traced Id Handle).registry.Owns pid id := by
    rintro ⟨ref, owner⟩
    simp [start, init] at owner
  refine ⟨fun id handle => ?_, fun pid id h => absurd h (nobody pid id),
    fun pid pid' id h => absurd h (nobody pid id), fun pid id id' h => absurd h (nobody pid id)⟩
  constructor
  · intro found
    cases found
  · rintro ⟨pid, owner, -⟩
    exact absurd owner (nobody pid id)

/-- An entry is new, or its process has a new handle. -/
lemma Bijective.granted (h : t.Bijective)
    (own : ∀ otherId, t.registry.Owns pid otherId → otherId = id)
    (free : ∀ pid', t.registry.Owns pid' id → pid' = pid)
    (found : ∀ id', r'.lookup id' = if id' = id then some handle else t.registry.lookup id')
    (owners : ∀ pid' id', r'.Owns pid' id' ↔
      if pid' = pid then id' = id else t.registry.Owns pid' id') :
    (Traced.mk r' (Function.update t.latest pid (some handle))).Bijective := by
  have once : ∀ pid₁ pid₂ id', r'.Owns pid₁ id' → r'.Owns pid₂ id' → pid₂ = pid₁ := by
    intro pid₁ pid₂ id' h₁ h₂
    rw [owners] at h₁ h₂
    split at h₁
    · rename_i same
      split at h₂
      · rename_i same'
        rw [same, same']
      · subst h₁
        rw [same]
        exact free pid₂ h₂
    · split at h₂
      · rename_i same'
        subst h₂
        rw [same']
        exact (free pid₁ h₁).symm
      · exact h.once pid₁ pid₂ id' h₁ h₂
  refine ⟨fun id' handle' => ?_, fun pid' id' owner => ?_, once, fun pid' id₁ id₂ h₁ h₂ => ?_⟩
  · -- the one handle that is exposed is that of the process, and the others stay
    show r'.lookup id' = some handle' ↔ ∃ pid', r'.Owns pid' id' ∧
      (∀ pid₂, r'.Owns pid₂ id' → pid₂ = pid') ∧
      Function.update t.latest pid (some handle) pid' = some handle'
    rw [found]
    by_cases here : id' = id
    · subst here
      have mine : r'.Owns pid id' := (owners pid id').mpr (by rw [if_pos rfl])
      rw [if_pos rfl]
      constructor
      · intro eq
        refine ⟨pid, mine, fun pid' other => once pid pid' id' mine other, ?_⟩
        rw [Function.update_self, eq]
      · rintro ⟨pid', owner, -, latest⟩
        rw [once pid pid' id' mine owner, Function.update_self] at latest
        exact latest
    · rw [if_neg here, h.exposed]
      have others (pid' : Pid) : r'.Owns pid' id' ↔ t.registry.Owns pid' id' ∧ pid' ≠ pid := by
        rw [owners]
        by_cases same : pid' = pid
        · subst same
          rw [if_pos rfl]
          exact iff_of_false here fun owner => owner.2 rfl
        · rw [if_neg same]
          exact ⟨fun owner => ⟨owner, same⟩, fun owner => owner.1⟩
      constructor
      · rintro ⟨pid', owner, alone, latest⟩
        have other : pid' ≠ pid := by
          rintro rfl
          exact here (own id' owner)
        refine ⟨pid', (others pid').mpr ⟨owner, other⟩,
          fun pid₂ h₂ => alone pid₂ ((others pid₂).mp h₂).1, ?_⟩
        rw [Function.update_of_ne other, latest]
      · rintro ⟨pid', owner, alone, latest⟩
        obtain ⟨owner, other⟩ := (others pid').mp owner
        rw [Function.update_of_ne other] at latest
        exact ⟨pid', owner, fun pid₂ h₂ => h.once pid' pid₂ id' owner h₂, latest⟩
  · show (r'.lookup id').isSome
    rw [found]
    rw [owners] at owner
    split
    · rfl
    · rename_i here
      split at owner
      · exact absurd owner here
      · exact h.owned pid' id' owner
  · rw [owners] at h₁ h₂
    split at h₁
    · rename_i same
      rw [if_pos same] at h₂
      rw [h₁, h₂]
    · rename_i other
      rw [if_neg other] at h₂
      exact h.single pid' id₁ id₂ h₁ h₂

/-- An entry is gone with its process. -/
lemma Bijective.released (h : t.Bijective) (released : t.registry.Released r' pid id) :
    (Traced.mk r' t.latest).Bijective := by
  obtain ⟨owner, found, owners⟩ := released
  have once : ∀ pid₁ pid₂ id', r'.Owns pid₁ id' → r'.Owns pid₂ id' → pid₂ = pid₁ :=
    fun pid₁ pid₂ id' h₁ h₂ =>
    h.once pid₁ pid₂ id' ((owners _ _).mp h₁).2 ((owners _ _).mp h₂).2
  refine ⟨fun id' handle' => ?_, fun pid' id' left => ?_, once, fun pid' id₁ id₂ h₁ h₂ =>
    h.single pid' id₁ id₂ ((owners _ _).mp h₁).2 ((owners _ _).mp h₂).2⟩
  · show r'.lookup id' = some handle' ↔ _
    rw [found]
    -- the entry that is gone was exposed for this process only
    by_cases here : id' = id
    · subst here
      rw [if_pos rfl]
      refine iff_of_false nofun ?_
      rintro ⟨pid', left, -⟩
      obtain ⟨other, left⟩ := (owners _ _).mp left
      exact other (h.once pid pid' id' owner left)
    · rw [if_neg here, h.exposed]
      constructor
      · rintro ⟨pid', left, alone, latest⟩
        have other : pid' ≠ pid := by
          rintro rfl
          exact here (h.single pid' id id' owner left)
        exact ⟨pid', (owners _ _).mpr ⟨other, left⟩,
          fun pid₂ h₂ => alone pid₂ ((owners _ _).mp h₂).2, latest⟩
      · rintro ⟨pid', left, -, latest⟩
        obtain ⟨-, left⟩ := (owners _ _).mp left
        exact ⟨pid', left, fun pid₂ h₂ => h.once pid' pid₂ id' left h₂, latest⟩
  · show (r'.lookup id').isSome
    obtain ⟨other, left⟩ := (owners _ _).mp left
    rw [found, if_neg]
    · exact h.owned pid' id' left
    · rintro rfl
      exact other (h.once pid pid' id' owner left)

/-- One event keeps the table and the owners together exactly when the registration is an exact
one. -/
lemma exact_iff [LooseEq Id] (h : t.Bijective) (e : Event Id Handle) :
    t.Exact e ↔ (t.next e).Bijective := by
  cases e with
  | down ref pid =>
    refine iff_of_true trivial ?_
    by_cases current : ∃ id, t.registry.instances[pid]? = some (id, ref)
    · obtain ⟨id, owner⟩ := current
      exact h.released (handleInfo_current owner)
    · have same : t.registry.handleInfo ref pid = t.registry :=
        handleInfo_stale fun id owner => current ⟨id, owner⟩
      rw [next, same]
      exact h
  | call request =>
    cases request with
    | unknown => exact iff_of_true trivial h
    | unregister pid id =>
      refine iff_of_true trivial ?_
      have result : (t.registry.unregister pid id).2 = t.registry ∨
          t.registry.Released (t.registry.unregister pid id).2 pid id := unregister_released
      rcases result with same | released
      · show (Traced.mk (t.registry.unregister pid id).2 _).Bijective
        rw [same]
        exact h
      · exact h.released released
    | register pid id handle =>
      by_cases ok : (t.registry.register pid id handle).1 = .ok
      · obtain ⟨found, owners, how⟩ := register_ok ok
        have latest : (t.next (.call (.register pid id handle))) =
            ⟨(t.registry.register pid id handle).2,
            Function.update t.latest pid (some handle)⟩ := by
          show Traced.mk _ (record _ _ (t.registry.register pid id handle).1) = _
          rw [ok]
          rfl
        have absent (free : id ∉ t.registry.table) (pid' : Pid) : ¬ t.registry.Owns pid' id := by
          intro owner
          exact free (AList.lookup_isSome.mp (h.owned pid' id owner))
        rw [latest]
        -- the process had no id, this one, or one that is loosely equal to it
        rcases how with ⟨nothing, free⟩ | owner | ⟨otherId, owner, other, loosely, free⟩
        · refine iff_of_true (fun otherId owner => absurd owner (nothing otherId)) ?_
          exact h.granted (fun otherId owner => absurd owner (nothing otherId))
            (fun pid' owner => absurd owner (absent free pid')) found owners
        · refine iff_of_true (fun otherId owner' _ => .inl (h.single pid id otherId owner owner'))
            ?_
          exact h.granted (fun otherId owner' => h.single pid id otherId owner owner')
            (fun pid' owner' => h.once pid pid' id owner owner') found owners
        · -- the entry of the other id is left behind
          refine iff_of_false ?_ ?_
          · intro exact
            rcases exact otherId owner loosely with same | taken
            · exact other same
            · exact free taken
          · intro h'
            have stays : ((t.registry.register pid id handle).2.lookup otherId).isSome := by
              rw [found, if_neg other]
              exact h.owned pid otherId owner
            obtain ⟨left, stays⟩ := Option.isSome_iff_exists.mp stays
            obtain ⟨pid', owner', -⟩ := (h'.exposed otherId left).mp stays
            have owner' := (owners pid' otherId).mp owner'
            split at owner'
            · exact other owner'
            · rename_i another
              exact another (h.once pid pid' otherId owner owner')
      · -- a registration that is refused changes nothing
        have same : (t.registry.register pid id handle).2 = t.registry :=
          handleCall_error (show (t.registry.handleCall (.register pid id handle)).1 ≠ .ok from ok)
        have kept : t.next (.call (.register pid id handle)) = t := by
          show Traced.mk _ (record _ _ (t.registry.register pid id handle).1) = _
          rw [show (t.registry.handleCall (.register pid id handle)).2 = t.registry from same]
          cases reply : (t.registry.register pid id handle).1 with
          | ok => exact absurd reply ok
          | _ => rfl
        rw [kept]
        refine iff_of_true ?_ h
        rintro otherId ⟨ref, owner⟩ loosely
        by_contra exact
        rw [not_or] at exact
        -- the id is free, and would be registered
        rw [register, owner] at ok
        simp only [if_neg (not_not_intro loosely), if_neg exact.1, claim, if_neg exact.2] at ok
        exact ok trivial

/-- What is promised of the registry: its table and its owners belong together, an error changes
nothing, and the message that a process is down takes away the entry which the monitor was made for,
and nothing else. -/
structure Faithful [LooseEq Id] (t : Traced Id Handle) : Prop where
  bijective : t.Bijective
  errors : ∀ request, (t.registry.handleCall request).1 ≠ .ok →
    (t.registry.handleCall request).2 = t.registry
  down : ∀ pid id ref, t.registry.instances[pid]? = some (id, ref) →
    t.registry.Released (t.registry.handleInfo ref pid) pid id
  stale : ∀ pid ref, (∀ id, t.registry.instances[pid]? ≠ some (id, ref)) →
    t.registry.handleInfo ref pid = t.registry

/-- Whatever calls are made and whatever messages come in: the registry is faithful all along
exactly when no process registers, under a free id, an id that is `==` to the one it has without
being the same term. -/
theorem bijection [LooseEq Id] (events : List (Event Id Handle)) :
    History.Always next Exact start events ↔
      ∀ before later, events = before ++ later → (History.after next start before).Faithful := by
  have along : History.Always next Exact (start : Traced Id Handle) events ↔
      ∀ before later, events = before ++ later → (History.after next start before).Bijective :=
    History.always_iff_invariant (fun t e h => exact_iff h e) start_bijective
  rw [along]
  constructor
  · intro h before later eq
    exact ⟨h before later eq, fun request => handleCall_error, fun pid id ref => handleInfo_current,
      fun pid ref => handleInfo_stale⟩
  · intro h before later eq
    exact (h before later eq).bijective

/-- A process registers `1`, and then `1.0`: the entry of `1` stays in the table, and nobody owns
it. -/
theorem bijection_loosely :
    ¬ (History.after next (start : Traced Term Nat) [.call (.register 7 (.integer 1) 0),
      .call (.register 7 (.float (Binary64.ofInt 1)) 1)]).Faithful := by
  intro h
  have first : ((start : Traced Term Nat).next (.call (.register 7 (.integer 1) 0))).Bijective := by
    refine (exact_iff start_bijective _).mp ?_
    rintro otherId ⟨ref, owner⟩
    simp [start, init] at owner
  have second : (((start : Traced Term Nat).next (.call (.register 7 (.integer 1) 0))).next
      (.call (.register 7 (.float (Binary64.ofInt 1)) 1))).Bijective := h.bijective
  rcases (exact_iff first _).mpr second (.integer 1) ⟨0, by decide +kernel⟩ (by decide +kernel) with
    same | taken
  · exact absurd same (by decide)
  · exact absurd taken (by decide +kernel)

end Traced

end Registry

end Veidrodelis
