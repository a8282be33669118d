import SearchScript.Run.Outcome
import SearchScript.Value.Operators
import SearchScript.Value.Text

/-!
# Running programs

`Walk.expr` and `Walk.statement` run a program in an environment, in one of two modes. The real mode
computes what the program means. The speculative mode looks for the completions at a cursor: it
stops there, runs the bodies of loops once, takes a missing expression as null, and its functions
run behind shadows so that nothing outside changes.

Operands and arguments are kept as they are evaluated, and a cell among them is read when the
operation is carried out.

The first argument of each function counts the steps that are left.
-/

namespace SearchScript

-- powers are those of the core library, whatever else is imported
attribute [local instance (high)] instPowNat

/-- The arguments of a call. -/
def Expr.arguments (args : Expr) : List Expr :=
  if args.isNoArguments then [] else args.parts

namespace Walk

/-! ## Names and members -/

/-- The value of a name. In the speculative mode an unknown name at the cursor is completed. -/
def name (ctx : Context) (span : Span) (name : String) : Run Value := fun st =>
  match st.resolve? ctx.env name with
  | some (v, st) => some (.ok v, st)
  | none =>
    match ctx.mode with
    | .real => Run.fail (.noSuchValue name) st
    | .speculative cursor =>
      if span.touches cursor then
        Run.raise (.suggest ⟨rankChoices name (st.visibleNames ctx.env), span⟩) st
      else Run.fail (.noSuchValue name) st

/-- The member of a value; a function member is made anew each time. -/
def memberOf (v : Value) (member : String) : Run Value := do
  match ← Run.ofValue ((← Run.snapshot v).memberOf member) with
  | .data v => pure v
  | .function callable => Run.update (·.newFunction callable)

/-- The member of a value that an expression behind a point names. -/
def namedMember (v : Value) : Expr → Run Value
  | .name _ member => memberOf v member
  | _ => Run.fail .expectedMemberName

/-- The names of the members of a value, or those that suit what was typed. -/
def offeredMembers (v : Value) : Expr → List String
  | .name _ typed => rankChoices typed v.memberNames
  | _ => v.memberNames

/-- Member access. In the speculative mode the members are offered if the cursor lies between the
left operand and the end of the right one. -/
def member (ctx : Context) (v : Value) (left right : Expr) : Run Value :=
  match ctx.mode with
  | .real => namedMember v right
  | .speculative cursor =>
    if left.span.stop ≤ cursor ∧ cursor ≤ right.span.stop then do
      Run.raise (.suggest ⟨offeredMembers (← Run.snapshot v) right, right.span⟩)
    else namedMember v right

/-! ## Operators -/

/-- A unary operator; a plus gives its operand back. -/
def unary (op : UnaryOp) (v : Value) : Run Value :=
  match op with
  | .plus => pure v
  | .negate => do Run.ofValue (← Run.snapshot v).negate
  | .not => do Run.ofValue (← Run.snapshot v).not
  | .bitNot => do Run.ofValue (← Run.snapshot v).bitNot

/-- A binary operator. -/
def binary (op : BinaryOp) (left right : Value) : Run Value := do
  Run.ofAnswer (Value.binary op (← Run.snapshot left) (← Run.snapshot right))

/-- Stores into a cell. -/
def assign (target v : Value) : Run Unit := fun st =>
  match st.assign target v with
  | .ok st => some (.ok (), st)
  | .error e => Run.fail (.value e) st

/-! ## Calls of what is not made by a program -/

/-- A type converts its first argument. -/
def convert (type : TypeName) (args : List Value) : Run Value :=
  match type, args with
  | .boolean, [] => Run.fail (.missingConstructorArgument .boolean)
  | .number, [] => Run.fail (.missingConstructorArgument .number)
  | .string, [] => Run.fail (.missingConstructorArgument .string)
  | .boolean, v :: _ => do pure (.boolean (← Run.ofValue (← Run.snapshot v).toBoolean))
  | .number, v :: _ => do pure (.number (← Run.ofValue (← Run.snapshot v).toNumber))
  | .string, v :: _ => do pure (.string (← Run.ofValue (← Run.snapshot v).toText))

/-- The largest file identifier. -/
def maxFileId : Nat := 2 ^ (64 : Nat) - 1

/-- The file identifier that a number is. The number past the last identifier counts as the last. -/
def fileId? (n : Number) : Option Nat :=
  match n.toInt? with
  | some (.ofNat id) => if id ≤ maxFileId + 1 then some (min id maxFileId) else none
  | _ => none

/-- Looks a file up by its identifier or its hash. -/
def lookUp (files : FileStore) : Value → Except RunError Value
  | .number n =>
    match (fileId? n).bind files.findById? with
    | some f => .ok (.file f)
    | none => .error (.fileIdNotFound n)
  | .string hash =>
    match files.findByHash? hash with
    | some f => .ok (.file f)
    | none => .error (.fileHashNotFound hash)
  | other => .error (.fileArgument other.type)

/-- Finds a file. The speculative mode takes a placeholder for every file. -/
def findFile (mode : Mode) (files : Option FileStore) (args : List Value) : Run Value :=
  match args with
  | [] => Run.fail (.missingConstructorArgument .file)
  | v :: _ => do
    let v ← Run.snapshot v
    match mode, files, v with
    | .real, none, _ => Run.fail .noFileLookup
    | .real, some files, v => Run.ofAnswer (lookUp files v)
    | .speculative _, _, .number _ => pure (.file .placeholder)
    | .speculative _, _, .string _ => pure (.file .placeholder)
    | .speculative _, _, other => Run.fail (.fileArgument other.type)

/-- Whether a list of strings holds the first argument. -/
def holds (items : List String) (args : List Value) : Run Value := do
  let args ← Run.read fun st => args.map st.snapshot
  let needle ← Run.ofAnswer (stringArgument args 0)
  pure (.boolean (items.contains needle))

/-- Notes the arguments and returns the first one. -/
def record (args : List Value) : Run Value := do
  Run.modify fun st => { st with recorded := args.reverse ++ st.recorded }
  pure (args.headD .null)

/-- The predicate that a quantifier is given. -/
def predicate (quantifier : Quantifier) (args : List Value) : Run Callable :=
  match args with
  | [] => Run.fail (.missingPredicate quantifier)
  | v :: _ => do Run.ofValue (← Run.snapshot v).requireFunction

/-- The Boolean that a predicate must answer. -/
def predicateAnswer (v : Value) : Run Bool := do
  match ← Run.snapshot v with
  | .boolean b => pure b
  | other => Run.fail (.predicateResult other.type)

/-! ## Ends of functions -/

/-- What a real run comes to: a value, also by returning it, or an error. No jump may leave it. -/
def realOutcome : Except Signal Value → Except RunError Value
  | .ok v => .ok v
  | .error (.leave v) => .ok v
  | .error .breakLoop => .error .breakOutsideLoop
  | .error .continueLoop => .error .continueOutsideLoop
  | .error (.suggest _) => .error .speculativeCall
  | .error (.fail e) => .error e

/-- What a function called for real answers. -/
def settle (step : Run Value) : Run Value := do
  Run.snapshot (← Run.ofAnswer (realOutcome (← Run.attempt step)))

/-- What a function called speculatively answers. A jump ends it. -/
def settleSpeculative (step : Run Value) : Run Value := do
  match ← Run.attempt step with
  | .ok v => pure v
  | .error (.leave v) => pure v
  | .error .breakLoop => pure .null
  | .error .continueLoop => pure .null
  | .error s => Run.raise s

/-- A new function whose body runs in the context in which it was made. -/
def makeClosure (ctx : Context) (params : List String) (body : Code) : Run Value :=
  Run.update (·.newFunction (.closure ⟨ctx, params, body⟩))

/-- The context of a call: a scope with the parameters over the context of the function. -/
def enter (closure : Closure) (args : List Value) : Run Context :=
  Run.update fun st =>
    let (names, st) := st.bindParams [] closure.params args
    let (env, st) := st.openFrame closure.context.run .scope names closure.context.env
    ({ closure.context with env }, st)

/-- The context behind a new shadow. -/
def behindShadow (ctx : Context) : Run Context :=
  Run.update fun st =>
    let (env, st) := st.openFrame ctx.run .shadow [] ctx.env
    ({ ctx with env }, st)

/-! ## Programs -/

mutual

/-- The value of an expression. -/
def expr : (fuel : Nat) → Context → Expr → Run Value
  | 0, _, _ => Run.cutOff
  | fuel + 1, ctx, e =>
    match e with
    | .placeholder _ =>
      match ctx.mode with
      | .real => Run.fail .placeholder
      | .speculative _ => pure .null
    | .name span text => name ctx span text
    | .typeName _ type => pure (.constructor type)
    | .number _ n => pure (.number n)
    | .boolean _ b => pure (.boolean b)
    | .string _ s => pure (.string s)
    | .null _ => pure .null
    | .unary _ op operand => do unary op (← expr fuel ctx operand)
    | .ternary _ condition whenTrue whenFalse => do
      let c ← Run.snapshot (← expr fuel ctx condition)
      if ← Run.ofValue c.requireBoolean then expr fuel ctx whenTrue
      else expr fuel ctx whenFalse
    | .lambda _ params body => makeClosure ctx params (.expression body)
    | .function _ params body => makeClosure ctx params (.statement body)
    | .binary _ op left right => do
      let l ← expr fuel ctx left
      match op with
      -- the right side of a member is its name, which is not evaluated
      | .member => member ctx l left right
      | .call => do
        let args ← exprs fuel ctx right.arguments
        call fuel ctx.mode l args
      | .group => expr fuel ctx right
      | op => do binary op l (← expr fuel ctx right)

/-- The values of expressions from left to right. -/
def exprs : (fuel : Nat) → Context → List Expr → Run (List Value)
  | 0, _, _ => Run.cutOff
  | _ + 1, _, [] => pure []
  | fuel + 1, ctx, e :: rest => do
    let v ← expr fuel ctx e
    let vs ← exprs fuel ctx rest
    pure (v :: vs)

/-- Calls a value. -/
def call : (fuel : Nat) → Mode → Value → List Value → Run Value
  | 0, _, _, _ => Run.cutOff
  | fuel + 1, mode, callee, args => do
    match ← Run.snapshot callee with
    | .function _ callable => apply fuel mode callable args
    | .constructor type => convert type args
    | .fileConstructor files => findFile mode files args
    | other => Run.fail (.value (.invalidOperation other.type .call))

/-- Calls a function. -/
def apply : (fuel : Nat) → Mode → Callable → List Value → Run Value
  | 0, _, _, _ => Run.cutOff
  | fuel + 1, mode, callable, args =>
    match callable with
    | .text receiver function => do
      let args ← Run.read fun st => args.map st.snapshot
      Run.ofAnswer (function.apply receiver args)
    | .holds items => holds items args
    | .quantifier quantifier items => do
      let callable ← predicate quantifier args
      quantify fuel mode quantifier callable items
    | .closure closure =>
      match mode, closure.context.mode with
      | .real, .speculative _ => Run.fail .realCall
      | .speculative _, .real => Run.fail .speculativeCall
      | .real, .real => do
        let ctx ← enter closure args
        settle (code fuel ctx closure.body)
      | .speculative _, .speculative _ => do
        -- what the body changes it changes in copies
        let ctx ← behindShadow (← enter closure args)
        settleSpeculative (code fuel ctx closure.body)
    | .recorder => record args

/-- Asks a predicate about items until an answer settles the question. -/
def quantify : (fuel : Nat) → Mode → Quantifier → Callable → List Value → Run Value
  | 0, _, _, _, _ => Run.cutOff
  | _ + 1, _, quantifier, _, [] => pure (.boolean (!quantifier.decisive))
  | fuel + 1, mode, quantifier, callable, item :: rest => do
    let answer ← predicateAnswer (← apply fuel mode callable [item])
    if answer == quantifier.decisive then pure (.boolean quantifier.decisive)
    else quantify fuel mode quantifier callable rest

/-- Runs an expression or a statement. -/
def code : (fuel : Nat) → Context → Code → Run Value
  | 0, _, _ => Run.cutOff
  | fuel + 1, ctx, .expression e => expr fuel ctx e
  | fuel + 1, ctx, .statement s => statement fuel ctx s

/-- Runs a statement. -/
def statement : (fuel : Nat) → Context → Statement → Run Value
  | 0, _, _ => Run.cutOff
  | fuel + 1, ctx, s =>
    match s with
    | .expression _ e => expr fuel ctx e
    | .assign _ op target value => do
      let target ← expr fuel ctx target
      let v ← expr fuel ctx value
      match op.binaryOp? with
      | some op => assign target (← binary op target v)
      | none => assign target v
      pure .null
    | .declare _ name initializer => do
      let v ← optional fuel ctx initializer
      Run.modify fun st =>
        let (cell, st) := st.newCell v
        st.bind ctx.env name cell
      pure .null
    | .leave _ value => do
      let v ← Run.snapshot (← optional fuel ctx value)
      Run.raise (.leave v)
    | .breakLoop _ => Run.raise .breakLoop
    | .continueLoop _ => Run.raise .continueLoop
    | .block _ body => statements fuel ctx body
    | .branch _ condition whenTrue whenFalse => do
      if ← truth fuel ctx condition then do
        let _ ← statement fuel ctx whenTrue
        pure .null
      else
        match whenFalse with
        | some s => do
          let _ ← statement fuel ctx s
          pure .null
        | none => pure .null
    | .forLoop _ initializer condition iterator body => do
      match initializer with
      | some s => let _ ← statement fuel ctx s
      | none => pure ()
      match ctx.mode with
      | .real => rounds fuel ctx condition iterator body
      -- neither the condition nor the iterator is run
      | .speculative _ => oneRound fuel ctx body
    | .whileLoop _ condition body =>
      match ctx.mode with
      | .real => rounds fuel ctx (some condition) none body
      | .speculative _ => oneRound fuel ctx body
    | .empty _ => pure .null

/-- The value of an optional expression, null if there is none. -/
def optional : (fuel : Nat) → Context → Option Expr → Run Value
  | 0, _, _ => Run.cutOff
  | _ + 1, _, none => pure .null
  | fuel + 1, ctx, some e => expr fuel ctx e

/-- Whether a condition holds. -/
def truth : (fuel : Nat) → Context → Expr → Run Bool
  | 0, _, _ => Run.cutOff
  | fuel + 1, ctx, e => do
    let v ← Run.snapshot (← expr fuel ctx e)
    Run.ofValue v.toBoolean

/-- Runs statements in order. -/
def statements : (fuel : Nat) → Context → List Statement → Run Value
  | 0, _, _ => Run.cutOff
  | _ + 1, _, [] => pure .null
  | fuel + 1, ctx, s :: rest => do
    let _ ← statement fuel ctx s
    statements fuel ctx rest

/-- Runs the body of a loop, followed by the iterator, as long as the condition holds. -/
def rounds : (fuel : Nat) → Context → (condition : Option Expr) → (iterator : Option Statement) →
    (body : Statement) → Run Value
  | 0, _, _, _, _ => Run.cutOff
  | fuel + 1, ctx, condition, iterator, body => do
    let goesOn ←
      match condition with
      | some e => truth fuel ctx e
      | none => pure true
    if goesOn then
      match ← Run.attempt (statement fuel ctx body) with
      | .error .breakLoop => pure .null
      -- a round that was skipped is followed by the iterator as well
      | .ok _ | .error .continueLoop => do
        match iterator with
        | some s => let _ ← statement fuel ctx s
        | none => pure ()
        rounds fuel ctx condition iterator body
      | .error s => Run.raise s
    else pure .null

/-- Runs the body of a loop once. -/
def oneRound : (fuel : Nat) → Context → (body : Statement) → Run Value
  | 0, _, _ => Run.cutOff
  | fuel + 1, ctx, body => do
    match ← Run.attempt (statement fuel ctx body) with
    | .ok _ | .error .breakLoop | .error .continueLoop => pure .null
    | .error s => Run.raise s

end

end Walk

end SearchScript
