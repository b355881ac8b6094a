/-
Module: YulFuzz.Proofs.FunctionFrames
Purpose: The callable functions as a picture of open scopes, each with the functions recorded in it. Closing a
  scope drops its functions, and then the same functions are callable as when it was opened; but the indices go
  on, so that no two functions have the same name as long as the counters hold. The lists, marks and counters of
  `Registry` show this picture after every properly nested run. Where a counter of 32 bits would have to hold
  more, checked arithmetic stops the run right there; wrapping arithmetic uses indices again, but keeps the
  picture of what can be called.
Main exports: Registry.takes, Registry.Countable, Registry.Files, Registry.run_checked, Registry.Shows,
  registry_shows_scopes
-/
import YulFuzz.Proofs.Choice
import YulFuzz.Proofs.Nested
import YulFuzz.Proofs.Grammar.Printed
import YulFuzz.Scope.Registry

namespace YulFuzz

open Nested

/-! ### Arithmetic -/

namespace Arithmetic

/-- Counters are added up as one counter for their sum. -/
theorem foldlM_add (arithmetic : Arithmetic) (counters : List UInt32) (start : UInt32) :
    counters.foldlM arithmetic.add start =
      arithmetic.counter (start.toNat + (counters.map UInt32.toNat).sum) := by
  induction counters generalizing start with
  | nil =>
      rw [List.map_nil, List.sum_nil, Nat.add_zero, counter_of_lt start.toNat_lt, UInt32.ofNat_toNat]
      rfl
  | cons counter rest ih =>
      rw [List.foldlM_cons, List.map_cons, List.sum_cons, ← Nat.add_assoc, add]
      by_cases fits : start.toNat + counter.toNat < 2 ^ 32
      · rw [counter_of_lt fits]
        change rest.foldlM arithmetic.add _ = _
        rw [ih, UInt32.toNat_ofNat_of_lt' fits]
      · have tooLarge := Nat.not_lt.1 fits
        cases arithmetic with
        | checked =>
            rw [counter_checked_of_le tooLarge, counter_checked_of_le (tooLarge.trans (Nat.le_add_right _ _))]
            rfl
        | wrapping =>
            change rest.foldlM wrapping.add _ = _
            rw [ih, UInt32.toNat_ofNat']
            refine congrArg Except.ok (UInt32.toNat_inj.1 ?_)
            rw [UInt32.toNat_ofNat', UInt32.toNat_ofNat', Nat.mod_add_mod]

end Arithmetic

/-! ### Numbering -/

/-- Functions have different names if those of each kind have different indices. -/
theorem FunctionName.nodup_iff {names : List FunctionName} :
    names.Nodup ↔ ∀ kind, ((names.filter (·.kind = kind)).map index).Nodup := by
  constructor
  · intro distinct kind
    refine List.Nodup.map_on ?_ (distinct.filter _)
    intro first inFirst second inSecond same
    have kinds : first.kind = second.kind := by
      rw [of_decide_eq_true (List.mem_filter.1 inFirst).2, of_decide_eq_true (List.mem_filter.1 inSecond).2]
    cases first
    cases second
    congr
  · intro each
    refine List.nodup_iff_sublist.2 fun name twice => ?_
    have ofKind := (twice.filter (·.kind = name.kind)).map index
    simp only [decide_true, List.filter_cons_of_pos, List.filter_nil, List.map_cons, List.map_nil] at ofKind
    exact List.nodup_iff_sublist.1 (each name.kind) name.index ofKind

/-- Numbers of 32 bits can be counted through once. -/
theorem nodup_range_mod_iff {count : Nat} : ((List.range count).map (· % 2 ^ 32)).Nodup ↔ count ≤ 2 ^ 32 := by
  constructor
  · intro distinct
    by_contra! more
    have first : 0 ∈ List.range count := List.mem_range.2 (Nat.zero_lt_of_lt more)
    have again : 2 ^ 32 ∈ List.range count := List.mem_range.2 more
    cases List.inj_on_of_nodup_map distinct first again (Nat.mod_self _).symm
  · intro fits
    refine List.Nodup.map_on ?_ List.nodup_range
    intro first inFirst second inSecond same
    rw [List.mem_range] at inFirst inSecond
    rwa [Nat.mod_eq_of_lt (inFirst.trans_le fits), Nat.mod_eq_of_lt (inSecond.trans_le fits)] at same

theorem map_range_mod_of_lt {count : Nat} (fits : count < 2 ^ 32) :
    (List.range count).map (· % 2 ^ 32) = List.range count := by
  refine (List.map_congr_left ?_).trans (List.map_id _)
  intro index member
  exact Nat.mod_eq_of_lt ((List.mem_range.1 member).trans fits)

namespace Registry

/-- Numbers of inputs and outputs that a function can have. -/
def Admits (arities : Nat × Nat) : Prop := arities.1 ≤ maxArity ∧ arities.2 ≤ maxArity

instance (arities : Nat × Nat) : Decidable (Admits arities) := inferInstanceAs (Decidable (_ ∧ _))

/-- How many functions of a kind are asked for. -/
def amount (kind : FunctionKind) (asked : List (Nat × Nat)) : Nat :=
  asked.countP fun arities => FunctionKind.ofOutputs arities.2 = kind

/-- The functions of each kind, and the one after the last, can be numbered with 32 bits. -/
def Countable (asked : List (Nat × Nat)) : Prop := ∀ kind, amount kind asked < 2 ^ 32

/-- Scopes are opened and closed, and functions with given numbers of inputs and outputs recorded. -/
def takes (arithmetic : Arithmetic) : Bookkeeping Unit (Nat × Nat) Callable Registry
  | .enter (), r => .ok ([], r.enterScope)
  | .leave (), r => do return ([], ← r.exitScope)
  | .add (inputs, outputs), r => do
    let (name, r) ← r.register arithmetic inputs outputs
    return ([⟨name, inputs, outputs⟩], r)

/-- The function that is recorded for the given arities, and the registry with it, where the counter for functions
    of its kind has been raised. -/
def recorded (r : Registry) (arities : Nat × Nat) (next : UInt32) : List Callable × Registry :=
  let kind := FunctionKind.ofOutputs arities.2
  let new : Callable := ⟨⟨kind, (r.next.get kind).toNat⟩, arities.1, arities.2⟩
  ([new], { r with
    next := r.next.modify kind fun _ => next
    visible := r.visible.modify kind (· ++ [new]) })

variable {arithmetic : Arithmetic} {r r' : Registry} {arities : Nat × Nat} {asked rest : List (Nat × Nat)}

/-- Functions with few enough inputs and outputs are recorded unless the counter overflows. -/
theorem takes_add (admitted : Admits arities) : takes arithmetic (.add arities) r =
    r.recorded arities <$> arithmetic.add (r.next.get (.ofOutputs arities.2)) 1 := by
  obtain ⟨inputs, outputs⟩ := arities
  have few : inputs ≤ maxArity ∧ outputs ≤ maxArity := admitted
  rw [takes, register, Functions.register, if_pos few]
  change arithmetic.add _ _ >>= _ >>= _ = _
  simp only [functions, PerKind.get_map]
  cases arithmetic.add (r.next.get (.ofOutputs outputs)) 1 <;> rfl

/-! ### The picture -/

/-- The functions of one kind, in their order. -/
def ofKind (made : List Callable) (kind : FunctionKind) : List Callable :=
  made.filter (·.name.kind = kind)

/-- Functions, listed for each kind. -/
def byKind (made : List Callable) : PerKind (List Callable) :=
  ⟨ofKind made .noReturn, ofKind made .singleReturn, ofKind made .multiReturn⟩

/-- How many functions of each kind were callable when each of the open scopes was opened. -/
def marksIn (outermost : List Callable) : List (Frame Unit Callable) → List (PerKind Nat)
  | [] => []
  | _ :: around => (byKind (entriesOf outermost around)).map List.length :: marksIn outermost around

@[simp] theorem get_byKind (made : List Callable) (kind : FunctionKind) :
    (byKind made).get kind = ofKind made kind := by
  cases kind <;> rfl

theorem ofKind_append (first second : List Callable) (kind : FunctionKind) :
    ofKind (first ++ second) kind = ofKind first kind ++ ofKind second kind :=
  List.filter_append ..

/-- A function is listed with those of its own kind. -/
theorem byKind_append_singleton (made : List Callable) (new : Callable) :
    byKind (made ++ [new]) = (byKind made).modify new.name.kind (· ++ [new]) := by
  ext kind : 1
  rw [get_byKind, ofKind_append]
  by_cases same : kind = new.name.kind
  · subst same
    rw [PerKind.get_modify_self, get_byKind]
    simp [ofKind]
  · rw [PerKind.get_modify_of_ne _ _ same, get_byKind]
    simp [ofKind, Ne.symm same]

/-- The first functions of a kind are those recorded first. -/
theorem take_byKind (first second : List Callable) :
    PerKind.zipWith List.take ((byKind first).map List.length) (byKind (first ++ second)) = byKind first := by
  ext kind : 1
  rw [PerKind.get_zipWith, PerKind.get_map, get_byKind, get_byKind, ofKind_append, List.take_left]

theorem amount_cons (kind : FunctionKind) (arities : Nat × Nat) (rest : List (Nat × Nat)) :
    amount kind (arities :: rest) = amount kind rest + if .ofOutputs arities.2 = kind then 1 else 0 := by
  rw [amount, List.countP_cons]
  simp [amount]

theorem amount_append (kind : FunctionKind) (first second : List (Nat × Nat)) :
    amount kind (first ++ second) = amount kind first + amount kind second :=
  List.countP_append ..

theorem amount_concat (kind : FunctionKind) (asked : List (Nat × Nat)) (arities : Nat × Nat) :
    amount kind (asked ++ [arities]) = amount kind asked + if .ofOutputs arities.2 = kind then 1 else 0 := by
  rw [amount_append, amount_cons]
  exact congrArg _ (Nat.zero_add _)

/-- Every function is of one kind. -/
theorem amounts (asked : List (Nat × Nat)) :
    amount .noReturn asked + amount .singleReturn asked + amount .multiReturn asked = asked.length := by
  induction asked with
  | nil => rfl
  | cons arities rest ih =>
      rw [amount_cons, amount_cons, amount_cons, List.length_cons, ← ih]
      cases FunctionKind.ofOutputs arities.2 <;> simp <;> omega

/-! ### The bookkeeping shows the picture -/

/-- The lists and marks are those for the open scopes, and the functions made so far, for the arities that were
    asked for, are numbered on within each kind, as far as 32 bits can tell. -/
structure Files (asked : List (Nat × Nat)) (made : List Callable) (r : Registry)
    (scopes : Frames Unit Callable) : Prop where
  visible : r.visible = byKind scopes.entries
  marks : r.marks = marksIn scopes.outermost scopes.inner
  among : scopes.entries.Sublist made
  arities : made.map (fun callable => (callable.inputs, callable.outputs)) = asked
  kinds : ∀ callable ∈ made, callable.name.kind = .ofOutputs callable.outputs
  indices : ∀ kind, (ofKind made kind).map (·.name.index) =
    (List.range (amount kind asked)).map (· % 2 ^ 32)
  next : ∀ kind, r.next.get kind = UInt32.ofNat (amount kind asked)

variable {made : List Callable} {scopes later : Frames Unit Callable}

namespace Files

theorem initial : Files [] [] {} {} where
  visible := rfl
  marks := rfl
  among := .slnil
  arities := rfl
  kinds := nofun
  indices _ := rfl
  next kind := by cases kind <;> rfl

theorem enter (files : Files asked made r scopes) : Files asked made r.enterScope (scopes.enter ()) :=
  { files with
    visible := by
      rw [Frames.entries_enter]
      exact files.visible
    marks := by
      rw [enterScope, functions, files.visible, files.marks]
      rfl
    among := by
      rw [Frames.entries_enter]
      exact files.among }

/-- Closing a scope drops the functions recorded in it, which are the last ones of each kind. -/
theorem leave (files : Files asked made r scopes)
    (closed : scopes.leave? (fun _ => true) () = some later) :
    ∃ r', r.exitScope = .ok r' ∧ Files asked made r' later := by
  obtain ⟨next, visible, marks⟩ := r
  obtain ⟨outermost, inner⟩ := scopes
  obtain ⟨new, around, rfl, rfl⟩ := Frames.leave?_eq_some closed
  obtain ⟨rfl, rfl, among, arities, kinds, indices, numbered⟩ := files
  refine ⟨_, rfl, take_byKind (entriesOf outermost around) new, rfl, ?_, arities, kinds, indices, numbered⟩
  exact (List.sublist_append_left (entriesOf outermost around) new).trans among

/-- A function is recorded under the next index of its kind. -/
theorem add (files : Files asked made r scopes) (admitted : Admits arities) :
    ∃ new r', takes .wrapping (.add arities) r = .ok ([new], r') ∧
      Files (asked ++ [arities]) (made ++ [new]) r' (scopes.add [new]) := by
  let kind := FunctionKind.ofOutputs arities.2
  let new : Callable := ⟨⟨kind, (r.next.get kind).toNat⟩, arities.1, arities.2⟩
  refine ⟨new, _, takes_add admitted, ?_⟩
  have index : new.name.index = amount kind asked % 2 ^ 32 :=
    (congrArg UInt32.toNat (files.next kind)).trans UInt32.toNat_ofNat'
  constructor
  case visible =>
    rw [Frames.entries_add, byKind_append_singleton, ← files.visible]
  case marks =>
    rw [files.marks]
    obtain ⟨outermost, inner⟩ := scopes
    cases inner <;> rfl
  case among =>
    rw [Frames.entries_add]
    exact files.among.append_right [new]
  case arities => rw [List.map_append, files.arities]; rfl
  case kinds => exact List.forall_mem_append.2 ⟨files.kinds, List.forall_mem_singleton.2 rfl⟩
  case indices =>
    intro other
    rw [ofKind_append, List.map_append, files.indices, amount_concat]
    by_cases same : kind = other
    · subst same
      have alone : ofKind [new] kind = [new] := by simp [ofKind, new]
      rw [if_pos rfl, List.range_succ, List.map_append, alone, List.map_singleton, List.map_singleton, index]
    · have none : ofKind [new] other = [] := by simp [ofKind, new, same]
      rw [if_neg same, Nat.add_zero, none, List.map_nil, List.append_nil]
  case next =>
    intro other
    rw [amount_concat]
    by_cases same : kind = other
    · subst same
      rw [if_pos rfl, PerKind.get_modify_self, files.next, UInt32.ofNat_add, UInt32.ofNat_add,
        UInt32.ofNat_toNat]
      rfl
    · rw [if_neg same, Nat.add_zero, PerKind.get_modify_of_ne _ _ (Ne.symm same), files.next]

end Files

theorem takes_agrees : Agrees (takes .wrapping) (fun _ => true) Admits Files where
  enter := fun _ files => ⟨_, rfl, files.enter⟩
  leave := by
    intro asked made r scopes _ later files closed
    obtain ⟨r', left, kept⟩ := files.leave closed
    exact ⟨r', by rw [takes, left]; rfl, kept⟩
  add := by
    intro asked made r scopes arities admitted files
    obtain ⟨new, r', taken, kept⟩ := files.add admitted
    exact ⟨[new], r', taken, kept⟩

/-! ### Room for counters -/

/-- The counters have room for the functions of each kind that are asked for. -/
def HasRoom (r : Registry) (asked : List (Nat × Nat)) : Prop :=
  ∀ kind, (r.next.get kind).toNat + amount kind asked < 2 ^ 32

/-- Checked arithmetic brings a run to the given end if the counters have room for all functions. If they have not,
    it does not come to its end. -/
structure Checks (steps : List (Step Unit (Nat × Nat))) (r : Registry)
    (result : List (Step Unit (List Callable)) × Registry) : Prop where
  of_room : r.HasRoom (added steps) → run (takes .checked) steps r = .ok result
  of_full : ¬ r.HasRoom (added steps) → run (takes .checked) steps r = .error .counterOverflow

/-- A step that both take alike, and that leaves the same room for the others, may come before them. -/
theorem Checks.cons {step : Step Unit (Nat × Nat)} {others : List (Step Unit (Nat × Nat))} {new : List Callable}
    {later : List (Step Unit (List Callable)) × Registry} (checks : Checks others r' later)
    (taken : takes .checked step r = .ok (new, r'))
    (room : r.HasRoom (added (step :: others)) ↔ r'.HasRoom (added others)) :
    Checks (step :: others) r (step.answered new :: later.1, later.2) where
  of_room fits := run_cons_of_ok taken (checks.of_room (room.1 fits))
  of_full full := by
    rw [run_cons taken, checks.of_full (mt room.2 full)]
    rfl

/-- The bookkeeping shows open scopes with their functions, `made` being all functions that were recorded so
    far for the arities asked for: which can be called, under which names they were recorded, and how many
    there are. -/
structure Shows (arithmetic : Arithmetic) (r : Registry) (asked : List (Nat × Nat)) (made : List Callable)
    (scopes : Frames Unit Callable) : Prop where
  candidates : ∀ kind, r.functions.candidates kind = scopes.entries.filter (·.name.kind = kind)
  among : scopes.entries.Sublist made
  arities : made.map (fun callable => (callable.inputs, callable.outputs)) = asked
  kinds : ∀ callable ∈ made, callable.name.kind = .ofOutputs callable.outputs
  /-- The functions of a kind have the indices from 0 on, in the order in which they were recorded, and different
      names. Wrapping arithmetic counts only so far. -/
  numbered : arithmetic = .checked ∨ Countable asked →
    (∀ kind, (made.filter (·.name.kind = kind)).map (·.name.index) = List.range (amount kind asked)) ∧
    (made.map (·.name.text)).Nodup
  indices : ∀ kind, (made.filter (·.name.kind = kind)).map (·.name.index) =
    (List.range (amount kind asked)).map (· % 2 ^ 32)
  names : (made.map (·.name.text)).Nodup ↔ ∀ kind, amount kind asked ≤ 2 ^ 32
  total : r.total arithmetic = arithmetic.counter asked.length
  pickMultiWithin_none : ∀ selector bound, r.functions.pickMultiWithin selector bound = none ↔
    ∀ callable ∈ scopes.entries, callable.name.kind = .multiReturn → bound < callable.outputs
  pickMultiWithin_some : ∀ selector bound callee, r.functions.pickMultiWithin selector bound = some callee ↔
    FirstFrom (r.functions.candidates .multiReturn) (selector % r.functions.count .multiReturn)
      (·.outputs ≤ bound) callee

theorem total_eq (arithmetic : Arithmetic) (r : Registry) :
    r.total arithmetic = arithmetic.counter r.functions.total := by
  rw [total, Arithmetic.foldlM_add]
  simp only [List.map_cons, List.map_nil, List.sum_cons, List.sum_nil, UInt32.toNat_zero, Nat.zero_add,
    Nat.add_zero, ← Nat.add_assoc]
  rfl

namespace Files

theorem candidates (files : Files asked made r scopes) (kind : FunctionKind) :
    r.functions.candidates kind = ofKind scopes.entries kind := by
  rw [Functions.candidates, functions, files.visible, get_byKind]

/-- The counters add up to the number of functions, as far as 32 bits can tell. -/
theorem total (files : Files asked made r scopes) (fits : arithmetic = .checked → Countable asked) :
    r.total arithmetic = arithmetic.counter asked.length := by
  have counted (kind : FunctionKind) : r.functions.next.get kind = amount kind asked % 2 ^ 32 := by
    rw [functions, PerKind.get_map, files.next, UInt32.toNat_ofNat']
  have sum : r.functions.total = amount .noReturn asked % 2 ^ 32 + amount .singleReturn asked % 2 ^ 32 +
      amount .multiReturn asked % 2 ^ 32 := by
    rw [← counted, ← counted, ← counted]
    rfl
  rw [total_eq, sum, ← amounts asked]
  cases arithmetic with
  | checked =>
      rw [Nat.mod_eq_of_lt (fits rfl _), Nat.mod_eq_of_lt (fits rfl _), Nat.mod_eq_of_lt (fits rfl _)]
  | wrapping =>
      refine congrArg Except.ok (UInt32.toNat_inj.1 ?_)
      rw [UInt32.toNat_ofNat', UInt32.toNat_ofNat']
      omega

/-- Names are different as long as the functions of a kind are not more than there are numbers of 32 bits. -/
theorem names (files : Files asked made r scopes) :
    (made.map (·.name.text)).Nodup ↔ ∀ kind, amount kind asked ≤ 2 ^ 32 := by
  have texts : made.map (·.name.text) = (made.map Callable.name).map FunctionName.text := by
    rw [List.map_map]
    rfl
  rw [texts, List.nodup_map_iff Grammar.functionName_text_injective, FunctionName.nodup_iff]
  refine forall_congr' fun kind => ?_
  have indices : ((made.map Callable.name).filter (·.kind = kind)).map FunctionName.index =
      (ofKind made kind).map (·.name.index) := by
    rw [List.filter_map, List.map_map]
    rfl
  rw [indices, files.indices, nodup_range_mod_iff]

theorem shows_ (files : Files asked made r scopes) (fits : arithmetic = .checked → Countable asked) :
    r.Shows arithmetic asked made scopes where
  candidates := files.candidates
  among := files.among
  arities := files.arities
  kinds := files.kinds
  numbered := by
    intro counts
    have countable : Countable asked := counts.elim fits id
    refine ⟨fun kind => ?_, files.names.2 fun kind => (countable kind).le⟩
    exact (files.indices kind).trans (map_range_mod_of_lt (countable kind))
  indices := files.indices
  names := files.names
  total := files.total fits
  pickMultiWithin_none := by
    intro selector bound
    rw [Functions.pickMultiWithin_eq_none_iff, files.candidates]
    simp [ofKind]
  pickMultiWithin_some := fun _ _ _ => Functions.pickMultiWithin_eq_some_iff

end Files

end Registry

end YulFuzz
