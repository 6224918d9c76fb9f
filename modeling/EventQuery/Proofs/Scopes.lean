import EventQuery.Proofs.Agreement

/-!
Scopes nest cleanly. While a scope is open, only the scope around it can gain names, and it keeps
the names it had; when the scope is closed, everything else is as it was. A name means what was
said first about it in the innermost open scope where anything was said about it.
-/
namespace EventQuery

namespace Symbols

variable {symbols symbols' : Symbols}

/-! ### Actions on a table of names -/

inductive Action where
  | define (name : String) (definition : Definition)
  | defineOutside (name : String) (definition : Definition)
  | lookup (name : String)
  | refer (source target : String) (span : Span)
  | push (root : Option Path)
  | pop

/-- The names after an action. What is rejected changes nothing; the outermost scope cannot be
closed. -/
def act (symbols : Symbols) : Action → Option Symbols
  | .define name definition => some ((symbols.define? name definition).getD symbols)
  | .defineOutside name definition => some ((symbols.defineOutside? name definition).getD symbols)
  | .lookup _ => some symbols
  | .refer source target span => some (symbols.refer source target span)
  | .push root => some (symbols.push root)
  | .pop => symbols.pop?

def run (symbols : Symbols) : List Action → Option Symbols
  | [] => some symbols
  | action :: rest => (symbols.act action).bind fun symbols => symbols.run rest

theorem run_append (past rest : List Action) :
    symbols.run (past ++ rest) = (symbols.run past).bind fun now => now.run rest := by
  induction past generalizing symbols with
  | nil => rfl
  | cons action past ih =>
    simp only [List.cons_append, run, Option.bind_assoc]
    exact congrArg (symbols.act action).bind (funext fun _ => ih)

/-- What a body does: single actions, and bodies that it runs in a scope of their own. -/
inductive Script where
  | single (action : Action)
  | withScope (root : Option Path) (body : List Script)

mutual

def runScript (symbols : Symbols) : Script → Option (Unit × Symbols)
  | .single action => (symbols.act action).map (Prod.mk ())
  | .withScope root body => symbols.withScope root fun inside => inside.runScripts body

def runScripts (symbols : Symbols) : List Script → Option (Unit × Symbols)
  | [] => some ((), symbols)
  | script :: rest => (symbols.runScript script).bind fun (_, symbols) => symbols.runScripts rest

end

mutual

/-- The actions of a script in turn, with those that open and close its scopes. -/
def Script.actions : Script → List Action
  | .single action => [action]
  | .withScope root body => .push root :: Script.actionsOfAll body ++ [.pop]

def Script.actionsOfAll : List Script → List Action
  | [] => []
  | script :: rest => script.actions ++ Script.actionsOfAll rest

end

theorem withScope_run (root : Option Path) (actions : List Action) :
    (symbols.withScope root fun inside => (inside.run actions).map (Prod.mk ())) =
      (symbols.run (.push root :: actions ++ [.pop])).map (Prod.mk ()) := by
  rw [List.cons_append, run, act, Option.bind_some, run_append]
  cases inside : (symbols.push root).run actions with
  | none => simp [withScope, inside]
  | some now => cases closed : now.pop? <;> simp [withScope, inside, run, act, closed]

mutual

theorem runScript_eq (symbols : Symbols) (script : Script) :
    symbols.runScript script = (symbols.run script.actions).map (Prod.mk ()) := by
  cases script with
  | single action =>
    cases acted : symbols.act action <;> simp [runScript, Script.actions, run, acted]
  | withScope root body =>
    rw [runScript, Script.actions, ← withScope_run]
    exact congrArg (symbols.withScope root) (funext fun inside => runScripts_eq inside body)

theorem runScripts_eq (symbols : Symbols) (scripts : List Script) :
    symbols.runScripts scripts =
      (symbols.run (Script.actionsOfAll scripts)).map (Prod.mk ()) := by
  cases scripts with
  | nil => rfl
  | cons script rest =>
    rw [runScripts, Script.actionsOfAll, run_append, runScript_eq symbols script]
    cases symbols.run script.actions with
    | none => rfl
    | some now => exact runScripts_eq now rest

end

/-- All that happens while a body runs in a scope of its own. -/
def scopedActions (root : Option Path) (scripts : List Script) : List Action :=
  .push root :: Script.actionsOfAll scripts ++ [.pop]

theorem withScope_runScripts (symbols : Symbols) (root : Option Path) (scripts : List Script) :
    (symbols.withScope root fun inside => inside.runScripts scripts) =
      (symbols.run (scopedActions root scripts)).map (Prod.mk ()) := by
  rw [scopedActions, ← withScope_run]
  exact congrArg (symbols.withScope root) (funext fun inside => runScripts_eq inside scripts)

theorem run_scopedActions {root : Option Path} {scripts : List Script} {last after : Symbols}
    (runs : (symbols.push root).run (Script.actionsOfAll scripts) = some last)
    (closes : last.pop? = some after) : symbols.run (scopedActions root scripts) = some after := by
  rw [scopedActions, List.cons_append, run, act, Option.bind_some, run_append, runs,
    Option.bind_some, run, act, closes, Option.bind_some, run]

/-! ### Scopes that gain names -/

/-- The scope after an attempt to define a name. -/
def attempt (scope : Scope) (entry : String × Definition) : Scope :=
  (scope.define? entry.1 entry.2).getD scope

/-- Of attempts to define names, those that are accepted: the first for each name that is not
known before. -/
def accepted (known : List String) : List (String × Definition) → List (String × Definition)
  | [] => []
  | (name, definition) :: rest =>
    if name ∈ known then accepted known rest
    else (name, definition) :: accepted (known ++ [name]) rest

section Attempt

variable {scope : Scope} {name : String} {definition : Definition}

theorem attempt_of_known (known : scope.lookup? name ≠ none) :
    attempt scope (name, definition) = scope := by
  have rejected : scope.define? name definition = none := by
    cases defined : scope.define? name definition with
    | none => rfl
    | some grown => exact absurd (Scope.define?_eq_some.1 defined).1 known
  rw [attempt, rejected, Option.getD_none]

theorem attempt_of_unknown (unknown : scope.lookup? name = none) :
    attempt scope (name, definition) =
      { scope with definitions := scope.definitions ++ [(name, definition)] } := by
  rw [attempt, Scope.define?_eq_some.2 ⟨unknown, rfl⟩, Option.getD_some]

theorem lookup?_eq_none_iff : scope.lookup? name = none ↔
    name ∉ scope.definitions.map Prod.fst := by
  simp only [Scope.lookup?, List.lookup_eq_none_iff, List.mem_map, not_exists, not_and]
  grind

end Attempt

theorem foldl_attempt (scope : Scope) (entries : List (String × Definition)) :
    entries.foldl attempt scope = { scope with
      definitions := scope.definitions ++ accepted (scope.definitions.map Prod.fst) entries } := by
  induction entries generalizing scope with
  | nil => simp [accepted]
  | cons entry rest ih =>
    obtain ⟨name, definition⟩ := entry
    by_cases known : name ∈ scope.definitions.map Prod.fst
    · have same : attempt scope (name, definition) = scope :=
        attempt_of_known fun unknown => lookup?_eq_none_iff.1 unknown known
      rw [List.foldl_cons, same, ih, accepted, if_pos known]
    · rw [List.foldl_cons, attempt_of_unknown (lookup?_eq_none_iff.2 known), ih, accepted,
        if_neg known]
      simp

theorem define_eq (name : String) (definition : Definition) :
    (symbols.define? name definition).getD symbols =
      { symbols with current := attempt symbols.current (name, definition) } := by
  cases defined : symbols.current.define? name definition <;> simp [define?, attempt, defined]

theorem defineOutside_eq_of_outer {scope : Scope} {rest : List Scope}
    (around : symbols.outer = scope :: rest) (name : String) (definition : Definition) :
    (symbols.defineOutside? name definition).getD symbols =
      { symbols with outer := attempt scope (name, definition) :: rest } := by
  obtain ⟨current, _, references⟩ := symbols
  cases around
  cases defined : scope.define? name definition <;> simp [defineOutside?, attempt, defined]

theorem pop?_of_outer {scope : Scope} {rest : List Scope} (around : symbols.outer = scope :: rest) :
    symbols.pop? = some { symbols with current := scope, outer := rest } := by
  rw [pop?, around]

/-! ### What is kept outside of an open scope -/

/-- The number of inner scopes that are open after an action; with none, none can be closed. -/
def Action.level? (level : Nat) : Action → Option Nat
  | .push _ => some (level + 1)
  | .pop => if level = 0 then none else some (level - 1)
  | _ => some level

def levelAfter (level : Nat) : List Action → Option Nat
  | [] => some level
  | action :: rest => (action.level? level).bind fun level => levelAfter level rest

/-- Every scope that the actions open is closed again, and no other is. -/
def WellNested (actions : List Action) : Prop := levelAfter 0 actions = some 0

/-- The attempts of an action to define a name around the scope that was opened first, the
innermost one at level zero. -/
def Action.attempts (level : Nat) : Action → List (String × Definition)
  | .defineOutside name definition => if level = 0 then [(name, definition)] else []
  | _ => []

def outsideAttempts (level : Nat) : List Action → List (String × Definition)
  | [] => []
  | action :: rest =>
    action.attempts level ++ outsideAttempts ((action.level? level).getD 0) rest

variable {around : Scope} {outer : List Scope} {level level' : Nat}

theorem act_inside {action : Action} (inside : symbols.outer.drop level = around :: outer)
    (leads : action.level? level = some level') : ∃ symbols', symbols.act action = some symbols' ∧
      symbols'.outer.drop level' = (action.attempts level).foldl attempt around :: outer := by
  cases action with
  | define name definition =>
    cases leads
    refine ⟨_, rfl, ?_⟩
    rw [define_eq]
    exact inside
  | defineOutside name definition =>
    cases leads
    refine ⟨_, rfl, ?_⟩
    cases level with
    | zero =>
      rw [defineOutside_eq_of_outer inside]
      rfl
    | succ level =>
      cases shape : symbols.outer with
      | nil => rw [shape] at inside; cases inside
      | cons scope rest =>
        rw [defineOutside_eq_of_outer shape]
        rw [shape] at inside
        exact inside
  | lookup name =>
    cases leads
    exact ⟨symbols, rfl, inside⟩
  | refer source target span =>
    cases leads
    refine ⟨_, rfl, ?_⟩
    rw [refer]
    split <;> exact inside
  | push root =>
    cases leads
    exact ⟨_, rfl, inside⟩
  | pop =>
    cases level with
    | zero => cases leads
    | succ level =>
      cases leads
      cases shape : symbols.outer with
      | nil => rw [shape] at inside; cases inside
      | cons scope rest =>
        rw [shape] at inside
        exact ⟨_, pop?_of_outer shape, inside⟩

theorem run_inside {actions : List Action} (inside : symbols.outer.drop level = around :: outer)
    (leads : levelAfter level actions = some level') :
    ∃ symbols', symbols.run actions = some symbols' ∧
      symbols'.outer.drop level' = (outsideAttempts level actions).foldl attempt around :: outer := by
  induction actions generalizing symbols level around with
  | nil =>
    cases leads
    exact ⟨symbols, rfl, inside⟩
  | cons action rest ih =>
    obtain ⟨between, first, leads⟩ := Option.bind_eq_some_iff.1 leads
    obtain ⟨next, acts, inside⟩ := act_inside inside first
    obtain ⟨last, runs, inside⟩ := ih inside leads
    refine ⟨last, by rw [run, acts, Option.bind_some, runs], ?_⟩
    rw [inside, outsideAttempts, List.foldl_append, first, Option.getD_some]

/-! ### What names mean -/

/-- What was said about names in each open scope, innermost first. Nothing is crossed out: what
is said again about a name is noted behind what was said first. -/
def note (notes : List (List (String × Definition))) :
    Action → List (List (String × Definition))
  | .define name definition =>
    match notes with
    | [] => []
    | here :: around => (here ++ [(name, definition)]) :: around
  | .defineOutside name definition =>
    match notes with
    | [] => []
    | [here] => [here ++ [(name, definition)]]
    | here :: around :: outer => here :: (around ++ [(name, definition)]) :: outer
  | .lookup _ => notes
  | .refer .. => notes
  | .push _ => [] :: notes
  | .pop => notes.tail

/-- A name means in the scope what was said first about it. -/
def Heeds (scope : Scope) (said : List (String × Definition)) : Prop :=
  ∀ name, scope.lookup? name = said.lookup name

theorem heeds_attempt {scope : Scope} {said : List (String × Definition)}
    (heeds : Heeds scope said) (entry : String × Definition) :
    Heeds (attempt scope entry) (said ++ [entry]) := by
  obtain ⟨name, definition⟩ := entry
  intro other
  rw [List.lookup_append, ← heeds other]
  cases known : scope.lookup? name with
  | none => rw [attempt_of_unknown known, Scope.lookup?_snoc]
  | some first =>
    rw [attempt_of_known (by simp [known])]
    by_cases same : other = name
    · rw [same, known, Option.some_or]
    · simp [List.lookup_cons, beq_false_of_ne same]

theorem act_heeds {action : Action} {notes : List (List (String × Definition))}
    (heeds : List.Forall₂ Heeds symbols.scopes notes)
    (acts : symbols.act action = some symbols') :
    List.Forall₂ Heeds symbols'.scopes (note notes action) := by
  obtain ⟨said, notes, here, around, rfl⟩ := List.forall₂_cons_left_iff.1 heeds
  cases action with
  | define name definition =>
    cases acts
    rw [define_eq]
    exact .cons (heeds_attempt here _) around
  | defineOutside name definition =>
    cases acts
    cases shape : symbols.outer with
    | nil =>
      rw [shape] at around
      cases around
      rw [defineOutside?, shape, define_eq, scopes, shape]
      exact .cons (heeds_attempt here _) .nil
    | cons scope rest =>
      rw [shape] at around
      obtain ⟨said', notes, second, others, rfl⟩ := List.forall₂_cons_left_iff.1 around
      rw [defineOutside_eq_of_outer shape]
      exact .cons here (.cons (heeds_attempt second _) others)
  | lookup name =>
    cases acts
    exact heeds
  | refer source target span =>
    cases acts
    rw [refer]
    split <;> exact heeds
  | push root =>
    cases acts
    exact .cons (fun _ => rfl) heeds
  | pop =>
    rw [act] at acts
    cases shape : symbols.outer with
    | nil =>
      rw [pop?, shape] at acts
      cases acts
    | cons scope rest =>
      rw [pop?_of_outer shape] at acts
      cases acts
      rwa [shape] at around

theorem run_heeds {actions : List Action} {notes : List (List (String × Definition))}
    (heeds : List.Forall₂ Heeds symbols.scopes notes)
    (runs : symbols.run actions = some symbols') :
    List.Forall₂ Heeds symbols'.scopes (actions.foldl note notes) := by
  induction actions generalizing symbols notes with
  | nil =>
    cases runs
    exact heeds
  | cons action rest ih =>
    obtain ⟨next, acts, runs⟩ := Option.bind_eq_some_iff.1 runs
    exact ih (act_heeds heeds acts) runs

theorem lookup?_of_heeds {notes : List (List (String × Definition))}
    (heeds : List.Forall₂ Heeds symbols.scopes notes) (name : String) :
    symbols.lookup? name = notes.findSome? fun said => said.lookup name := by
  rw [lookup?]
  generalize symbols.scopes = scopes at heeds ⊢
  induction heeds with
  | nil => rfl
  | cons here _ ih => simp only [List.findSome?_cons, here name, ih]

/-- A body that runs in a scope of its own leaves the scopes around it as they were, but for the
names that were defined around it while this scope was the innermost one and were not known
there. At every moment a name means what was said first about it in the innermost open scope in
which anything was said about it. -/
theorem withScope_nested (symbols : Symbols) (root : Option Path) {scripts : List Script}
    (nested : WellNested (Script.actionsOfAll scripts)) :
    (∃ after, (symbols.withScope root fun inside => inside.runScripts scripts) = some ((), after) ∧
      after.depth = symbols.depth ∧ after.root = symbols.root ∧ after.outer = symbols.outer ∧
      after.current.definitions = symbols.current.definitions ++
        accepted (symbols.current.definitions.map Prod.fst)
          (outsideAttempts 0 (Script.actionsOfAll scripts)) ∧
      List.Forall₂ (fun scope scope' => ∀ name definition,
        scope.lookup? name = some definition → scope'.lookup? name = some definition)
        symbols.scopes after.scopes) ∧
    ∀ past rest, scopedActions root scripts = past ++ rest →
      ∃ now, symbols.run past = some now ∧ ∀ name, now.lookup? name =
        (past.foldl note (symbols.scopes.map Scope.definitions)).findSome? fun said =>
          said.lookup name := by
  have opened : (symbols.push root).outer.drop 0 = symbols.current :: symbols.outer := rfl
  obtain ⟨last, runs, inside⟩ := run_inside opened nested
  rw [foldl_attempt, List.drop_zero] at inside
  have whole := run_scopedActions runs (pop?_of_outer inside)
  constructor
  · have enclosed := withScope_runScripts symbols root scripts
    rw [whole] at enclosed
    refine ⟨_, enclosed, rfl, rfl, rfl, rfl, .cons ?_ ?_⟩
    · intro name definition found
      rw [Scope.lookup?, List.lookup_append]
      exact Option.or_eq_some_iff.2 (.inl found)
    · exact List.forall₂_same.2 fun scope _ name definition found => found
  · intro past rest split
    rw [split, run_append] at whole
    obtain ⟨now, runs, _⟩ := Option.bind_eq_some_iff.1 whole
    refine ⟨now, runs, fun name => lookup?_of_heeds (run_heeds ?_ runs) name⟩
    rw [List.forall₂_map_right_iff]
    exact List.forall₂_same.2 fun scope _ name => rfl

private def viewed : Symbols := ⟨⟨.relation ["user"], [("kept", .view)]⟩, [], []⟩

/-- Of the names that the body defines around itself, `kept` is known already; what the inner
scope defines around itself is closed with the body. -/
private def nestedBody : List Script :=
  [.single (.define "kept" .query), .single (.defineOutside "late" .view),
    .single (.defineOutside "kept" .query), .single (.defineOutside "late" .query),
    .withScope (some (.relation ["user", "sessions"]))
      [.single (.defineOutside "lost" .view), .single (.lookup "lost")],
    .single (.push none), .single (.refer "late" "kept" .none), .single .pop]

theorem withScope_nested_viewed : WellNested (Script.actionsOfAll nestedBody) ∧
    ∃ after, (viewed.withScope none fun inside => inside.runScripts nestedBody) = some ((), after) ∧
      after.current.definitions = [("kept", .view), ("late", .view)] ∧ after.outer = [] := by
  have nested : WellNested (Script.actionsOfAll nestedBody) := rfl
  obtain ⟨⟨after, runs, _, _, outer, definitions, _⟩, _⟩ := withScope_nested viewed none nested
  exact ⟨nested, after, runs, definitions.trans (by decide), outer⟩

end Symbols

end EventQuery
