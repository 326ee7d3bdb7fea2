import RegisterMachine.Handlers
import RegisterMachine.Proofs.Registry.Dispatch

namespace RegisterMachine.Registry

inductive Request
  | register (key : String) (handler : Handler)
  | freeze
  | execute (op : Operation)

namespace Request

def isFreeze : Request → Bool
  | freeze => true
  | _ => false

def handlerFor? (key : String) : Request → Option Handler
  | register k handler => if key = k then some handler else none
  | _ => none

/-- How a request is answered, and what it leaves. A registration that is refused leaves the
registry as it is, and an execution has the registry only to read it. -/
inductive Serves (r : Registry) (c : Context) :
    Request → Except Error (Option Bool) → Registry → Context → Prop
  | registered {key : String} {handler : Handler} {r' : Registry}
    (done : r.register key handler = .ok r') :
    Serves r c (register key handler) (.ok none) r' c
  | refused {key : String} {handler : Handler} {e : Error}
    (refused : r.register key handler = .error e) :
    Serves r c (register key handler) (.error e) r c
  | frozen : Serves r c freeze (.ok none) r.freeze c
  | executed {op : Operation} {result : Except Error Bool} {c' : Context}
    (ended : (r.execute op).start c = some (result, c')) :
    Serves r c (execute op) (result.map some) r c'

inductive Leaves (r : Registry) : Request → Registry → Prop
  | same {request : Request} (other : request.isFreeze = false)
    (vain : ∀ key, (request.handlerFor? key).isSome = true →
      r.frozen = true ∨ (r.find? key).isSome = true) : Leaves r request r
  | frozen : Leaves r freeze r.freeze
  | bound {key : String} {handler : Handler} (unfrozen : r.frozen = false)
    (free : r.find? key = none) :
    Leaves r (register key handler) ⟨r.bindings ++ [(key, handler)], false⟩

end Request

inductive Lives : Registry → Context → List Request → Registry → Context → Prop
  | nil {r : Registry} {c : Context} : Lives r c [] r c
  | cons {r r' r'' : Registry} {c c' c'' : Context} {request : Request} {requests : List Request}
    {reply : Except Error (Option Bool)} (served : request.Serves r c reply r' c')
    (rest : Lives r' c' requests r'' c'') : Lives r c (request :: requests) r'' c''

/-- The registries that a host starts with, and the requests that have made them. -/
inductive Begins : Registry → List Request → Prop
  | empty : Begins {} []
  | standard :
    Begins standard (Opcode.all.map (fun op => .register op.key op.handler) ++ [.freeze])

/-- The handler of the first registration of a key among the requests before any freeze. -/
def firstHandler? (key : String) (requests : List Request) : Option Handler :=
  (requests.takeWhile fun request => !request.isFreeze).findSome? (·.handlerFor? key)

structure WrittenOnce (past : List Request) (r : Registry) (c : Context) : Prop where
  binding : ∀ key, r.find? key = firstHandler? key past
  keys : ∀ key, key ∈ r.keys ↔ (firstHandler? key past).isSome = true
  once : r.keys.Nodup
  frozen : r.frozen = true ↔ .freeze ∈ past
  refusedFrozen : .freeze ∈ past → ∀ key handler reply r' c',
    (Request.register key handler).Serves r c reply r' c' ↔
      reply = .error .registryFrozen ∧ r' = r ∧ c' = c
  refusedBound : .freeze ∉ past → ∀ key, (firstHandler? key past).isSome = true →
    ∀ handler reply r' c', (Request.register key handler).Serves r c reply r' c' ↔
      reply = .error (.alreadyBound key) ∧ r' = r ∧ c' = c
  taken : .freeze ∉ past → ∀ key, firstHandler? key past = none → ∀ handler,
    ∃ taken, ∀ reply r' c', (Request.register key handler).Serves r c reply r' c' ↔
      reply = .ok none ∧ r' = taken ∧ c' = c
  kept : ∀ requests r' c', Lives r c requests r' c' →
    ∀ key handler, r.find? key = some handler → r'.find? key = some handler
  constant : .freeze ∈ past → ∀ requests r' c', Lives r c requests r' c' → r' = r
  executed : ∀ op reply r' c', (Request.execute op).Serves r c reply r' c' → r' = r
  dispatches : ∀ op, (r.execute op).start c =
    match firstHandler? op.key past with
    | none => some (.error (.unboundKey op.key), c)
    | some handler =>
      match op.advance c.state.ip with
      | .error e => some (.error e, c)
      | .ok next => (handler op.operands).start { c with state := c.state.setIp next }

variable {r r' r'' r₀ : Registry} {c₀ c c' c'' : Context} {request : Request}
  {requests more made past : List Request} {reply : Except Error (Option Bool)}
  {key : String} {handler : Handler}

theorem register_of_frozen (frozen : r.frozen = true) (key : String) (handler : Handler) :
    r.register key handler = .error .registryFrozen := by
  rw [register, if_pos frozen]

theorem register_of_bound (unfrozen : r.frozen = false) (bound : (r.find? key).isSome = true)
    (handler : Handler) : r.register key handler = .error (.alreadyBound key) := by
  simp only [register, unfrozen, bound, Bool.false_eq_true, ↓reduceIte]

theorem register_of_free (unfrozen : r.frozen = false) (free : r.find? key = none)
    (handler : Handler) :
    r.register key handler = .ok ⟨r.bindings ++ [(key, handler)], false⟩ := by
  simp only [register, unfrozen, free, Option.isSome_none, Bool.false_eq_true, ↓reduceIte]

theorem register_eq_error {e : Error} (refused : r.register key handler = .error e) :
    r.frozen = true ∨ (r.find? key).isSome = true := by
  cases frozen : r.frozen with
  | true => exact .inl rfl
  | false =>
    cases bound : r.find? key with
    | some other => exact .inr rfl
    | none =>
      rw [register_of_free frozen bound] at refused
      cases refused

theorem register_eq_ok (done : r.register key handler = .ok r') :
    r.frozen = false ∧ r.find? key = none ∧ r' = ⟨r.bindings ++ [(key, handler)], false⟩ := by
  cases frozen : r.frozen with
  | true =>
    rw [register_of_frozen frozen] at done
    cases done
  | false =>
    cases bound : r.find? key with
    | some other =>
      rw [register_of_bound frozen (by rw [bound]; rfl)] at done
      cases done
    | none =>
      rw [register_of_free frozen bound] at done
      cases done
      exact ⟨rfl, rfl, rfl⟩

theorem mem_keys_iff : key ∈ r.keys ↔ (r.find? key).isSome = true := by
  simp [keys, find?]

theorem find?_eq_none (apart : ∀ k ∈ r.bindings.map Prod.fst, k ≠ key) : r.find? key = none := by
  rw [find?, List.lookup_eq_none_iff]
  intro pair member
  have other := apart pair.1 (List.mem_map_of_mem member)
  simpa using other.symm

theorem nodup_keys_iff : r.keys.Nodup ↔ (r.bindings.map Prod.fst).Nodup :=
  (List.mergeSort_perm _ _).nodup_iff

theorem find?_append (bindings more : List (String × Handler)) (frozen : Bool) (key : String) :
    find? ⟨bindings ++ more, frozen⟩ key = (find? ⟨bindings, frozen⟩ key).or (more.lookup key) :=
  List.lookup_append

theorem firstHandler?_cons (key : String) (request : Request) (requests : List Request) :
    firstHandler? key (request :: requests) =
      if request.isFreeze then none
      else (request.handlerFor? key).or (firstHandler? key requests) := by
  cases freezes : request.isFreeze with
  | true => simp [firstHandler?, freezes]
  | false =>
    simp only [firstHandler?, List.takeWhile_cons, freezes, Bool.not_false, ↓reduceIte,
      List.findSome?_cons]
    cases request.handlerFor? key <;> rfl

namespace Request

theorem serves_register_of_error {e : Error} (refused : r.register key handler = .error e) :
    (register key handler).Serves r c reply r' c' ↔ reply = .error e ∧ r' = r ∧ c' = c := by
  constructor
  · intro served
    cases served with
    | registered done => simp [refused] at done
    | refused again =>
      rw [refused] at again
      cases again
      exact ⟨rfl, rfl, rfl⟩
  · rintro ⟨rfl, rfl, rfl⟩
    exact .refused refused

theorem serves_register_of_ok {taken : Registry} (done : r.register key handler = .ok taken) :
    (register key handler).Serves r c reply r' c' ↔ reply = .ok none ∧ r' = taken ∧ c' = c := by
  constructor
  · intro served
    cases served with
    | refused refused => simp [done] at refused
    | registered again =>
      rw [done] at again
      cases again
      exact ⟨rfl, rfl, rfl⟩
  · rintro ⟨rfl, rfl, rfl⟩
    exact .registered done

theorem Serves.leaves (served : request.Serves r c reply r' c') : request.Leaves r r' := by
  cases served with
  | registered done =>
    obtain ⟨unfrozen, free, rfl⟩ := register_eq_ok done
    exact .bound unfrozen free
  | @refused key handler _ refused =>
    apply Leaves.same rfl
    intro k asked
    have same : k = key := by simpa [handlerFor?] using asked
    rw [same]
    exact register_eq_error refused
  | frozen => exact .frozen
  | executed => exact .same rfl (by simp [handlerFor?])

theorem Leaves.find?_eq (leaves : request.Leaves r r') (key : String) :
    r'.find? key = (r.find? key).or (if r.frozen then none else request.handlerFor? key) := by
  cases leaves with
  | same other vain =>
    cases asked : request.handlerFor? key with
    | none => simp
    | some handler =>
      rcases vain key (by rw [asked]; rfl) with frozen | bound
      · simp [frozen]
      · rw [Option.or_of_isSome bound]
  | frozen => simp [Registry.freeze, find?, handlerFor?]
  | @bound k handler unfrozen =>
    have asked : [(k, handler)].lookup key = if key = k then some handler else none := by
      by_cases same : key = k
      · simp [same]
      · simp [List.lookup_cons, beq_false_of_ne same, same]
    rw [find?_append, asked, unfrozen]
    rfl

theorem Leaves.frozen_eq (leaves : request.Leaves r r') :
    r'.frozen = (r.frozen || request.isFreeze) := by
  cases leaves with
  | same other => simp [other]
  | frozen => simp [Registry.freeze, isFreeze]
  | bound unfrozen => simp [unfrozen, isFreeze]

theorem Leaves.nodup_keys (leaves : request.Leaves r r') (once : r.keys.Nodup) :
    r'.keys.Nodup := by
  cases leaves with
  | @bound key handler _ free =>
    have new : ∀ k ∈ r.bindings.map Prod.fst, k ≠ key := by
      rintro k member rfl
      have bound := mem_keys_iff.mp ((List.mergeSort_perm _ _).mem_iff.mpr member)
      simp [free] at bound
    rw [nodup_keys_iff] at once ⊢
    rw [List.map_append, List.nodup_append]
    exact ⟨once, by simp, by simpa using new⟩
  | _ => exact once

theorem Leaves.eq_of_frozen (leaves : request.Leaves r r') (frozen : r.frozen = true) :
    r' = r := by
  cases leaves with
  | same => rfl
  | frozen => rw [Registry.freeze, ← frozen]
  | bound unfrozen => simp [frozen] at unfrozen

end Request

namespace Lives

theorem append (first : Lives r c requests r' c') (second : Lives r' c' more r'' c'') :
    Lives r c (requests ++ more) r'' c'' := by
  induction first with
  | nil => exact second
  | cons served _ ih => exact .cons served (ih second)

/-- What a registry has bound stays; to that come the first handlers of new keys, while it is not
frozen. -/
theorem find?_eq (lives : Lives r c requests r' c') (key : String) :
    r'.find? key = (r.find? key).or (if r.frozen then none else firstHandler? key requests) := by
  induction lives with
  | nil => simp [firstHandler?]
  | @cons r r' _ _ _ _ request _ _ served _ ih =>
    rw [ih, served.leaves.find?_eq, served.leaves.frozen_eq, firstHandler?_cons]
    cases r.frozen with
    | true => simp
    | false =>
      cases request with
      | freeze => simp [Request.isFreeze, Request.handlerFor?]
      | register => simp [Request.isFreeze, Option.or_assoc]
      | execute => simp [Request.isFreeze, Request.handlerFor?]

theorem frozen_iff (lives : Lives r c requests r' c') :
    r'.frozen = true ↔ r.frozen = true ∨ .freeze ∈ requests := by
  induction lives with
  | nil => simp
  | @cons _ _ _ _ _ _ request _ _ served _ ih =>
    rw [ih, served.leaves.frozen_eq]
    cases request with
    | freeze => simp [Request.isFreeze]
    | register => simp [Request.isFreeze]
    | execute => simp [Request.isFreeze]

theorem nodup_keys (lives : Lives r c requests r' c') (once : r.keys.Nodup) : r'.keys.Nodup := by
  induction lives with
  | nil => exact once
  | cons served _ ih => exact ih (served.leaves.nodup_keys once)

theorem eq_of_frozen (lives : Lives r c requests r' c') (frozen : r.frozen = true) : r' = r := by
  induction lives with
  | nil => rfl
  | cons served _ ih =>
    obtain rfl := served.leaves.eq_of_frozen frozen
    exact ih frozen

theorem of_new (pairs : List (String × Handler)) (unfrozen : r.frozen = false)
    (new : (r.bindings.map Prod.fst ++ pairs.map Prod.fst).Nodup) (c : Context) :
    Lives r c (pairs.map fun pair => .register pair.1 pair.2) ⟨r.bindings ++ pairs, false⟩ c := by
  induction pairs generalizing r with
  | nil =>
    rw [List.append_nil, ← unfrozen]
    exact .nil
  | cons pair pairs ih =>
    have apart : ∀ k ∈ r.bindings.map Prod.fst, k ≠ pair.1 := by
      intro k member
      exact (List.nodup_append.mp new).2.2 k member pair.1 List.mem_cons_self
    have free := find?_eq_none apart
    have done := register_of_free unfrozen free pair.2
    have rest := @ih ⟨r.bindings ++ [pair], false⟩ rfl (by simpa using new)
    rw [List.append_assoc] at rest
    exact .cons (.registered done) rest

end Lives

theorem Begins.lives (begins : r₀.Begins made) (c : Context) : Lives {} c made r₀ c := by
  cases begins with
  | empty => exact .nil
  | standard =>
    have distinct : (Registry.standard.bindings.map Prod.fst).Nodup := by decide
    have bound := Lives.of_new Registry.standard.bindings (r := {}) rfl distinct c
    exact bound.append (.cons .frozen .nil)

/-- From the empty registry or the standard one on, and whatever is asked of it, a registry keeps
the first handler of each key that is registered before any freeze. -/
theorem written_once (begins : r₀.Begins made) (lives : Lives r₀ c₀ past r c) :
    WrittenOnce (made ++ past) r c := by
  have all := (begins.lives c₀).append lives
  have binding : ∀ key, r.find? key = firstHandler? key (made ++ past) := all.find?_eq
  have frozen : r.frozen = true ↔ .freeze ∈ made ++ past := by
    simpa using all.frozen_iff
  have unfrozen : .freeze ∉ made ++ past → r.frozen = false := by
    rw [← frozen, Bool.not_eq_true]
    exact id
  exact
    { binding
      frozen
      keys := by
        intro key
        rw [mem_keys_iff, binding]
      once := all.nodup_keys (nodup_keys_iff.mpr List.nodup_nil)
      refusedFrozen := by
        intro frozen' key handler reply r' c'
        exact Request.serves_register_of_error (register_of_frozen (frozen.mpr frozen') key handler)
      refusedBound := by
        intro open_ key bound handler reply r' c'
        rw [← binding] at bound
        exact Request.serves_register_of_error (register_of_bound (unfrozen open_) bound handler)
      taken := by
        intro open_ key free handler
        rw [← binding] at free
        have done := register_of_free (unfrozen open_) free handler
        exact ⟨_, fun _ _ _ => Request.serves_register_of_ok done⟩
      kept := by
        intro requests r' c' later key handler bound
        rw [later.find?_eq, bound, Option.some_or]
      constant := by
        intro frozen' requests r' c' later
        exact later.eq_of_frozen (frozen.mpr frozen')
      executed := by
        intro op reply r' c' served
        cases served with
        | executed => rfl
      dispatches := by
        intro op
        rw [start_eq_dispatch, dispatch, binding]
        cases firstHandler? op.key (made ++ past) with
        | none => rfl
        | some handler => cases op.advance c.state.ip <;> rfl }

theorem written_once_bell :
    let c : Context := ⟨{}, {}⟩
    let past : List Request :=
      [.register "bell" Handler.exit, .register "bell" Handler.out, .freeze,
        .register "bell" Handler.out, .register "gong" Handler.out]
    let r : Registry := ⟨[("bell", Handler.exit)], true⟩
    Begins {} [] ∧ Lives {} c past r c ∧ WrittenOnce past r c ∧
      firstHandler? "bell" past = some Handler.exit ∧ firstHandler? "gong" past = none := by
  intro c past r
  have lives : Lives {} c past r c :=
    .cons (.registered rfl) <| .cons (.refused rfl) <| .cons .frozen <| .cons (.refused rfl) <|
      .cons (.refused rfl) .nil
  exact ⟨.empty, lives, written_once .empty lives, rfl, rfl⟩

end RegisterMachine.Registry
