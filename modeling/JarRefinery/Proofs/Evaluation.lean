import JarRefinery.Tool.Call

/-!
# Evaluation

An operation is a function from a host and a world to how it ends and the world it leaves. Each way
of putting operations together has its equation here, so that no later proof opens the monads.
-/

namespace JarRefinery

namespace FileTree.Action

variable {α β : Type}

/-- How an operation on a tree ends, and the tree that it leaves. -/
def eval (operation : FileTree.Action α) (tree : FileTree) : Except FileError α × FileTree :=
  operation.run.run tree

@[simp]
theorem eval_pure (value : α) (tree : FileTree) : eval (pure value) tree = (.ok value, tree) :=
  rfl

@[simp]
theorem eval_throw (error : FileError) (tree : FileTree) :
    eval (throw error : FileTree.Action α) tree = (.error error, tree) :=
  rfl

@[simp]
theorem eval_get (tree : FileTree) :
    eval (get : FileTree.Action FileTree) tree = (.ok tree, tree) :=
  rfl

@[simp]
theorem eval_set (after tree : FileTree) :
    eval (set after : FileTree.Action PUnit) tree = (.ok ⟨⟩, after) :=
  rfl

@[simp]
theorem eval_modify (change : FileTree → FileTree) (tree : FileTree) :
    eval (modify change : FileTree.Action PUnit) tree = (.ok ⟨⟩, change tree) :=
  rfl

theorem eval_bind (operation : FileTree.Action α) (next : α → FileTree.Action β)
    (tree : FileTree) :
    eval (operation >>= next) tree =
      match eval operation tree with
      | (.ok value, after) => eval (next value) after
      | (.error error, after) => (.error error, after) := by
  unfold eval ExceptT.run StateT.run
  simp only [bind, ExceptT.bind, ExceptT.mk, StateT.bind]
  cases operation tree with
  | mk result after => cases result <;> rfl

theorem eval_tryCatch (operation : FileTree.Action α) (handler : FileError → FileTree.Action α)
    (tree : FileTree) :
    eval (tryCatch operation handler) tree =
      match eval operation tree with
      | (.ok value, after) => (.ok value, after)
      | (.error error, after) => eval (handler error) after := by
  unfold eval ExceptT.run StateT.run
  simp only [tryCatch, tryCatchThe, MonadExceptOf.tryCatch, ExceptT.tryCatch, ExceptT.mk, bind,
    StateT.bind]
  cases operation tree with
  | mk result after => cases result <;> rfl

theorem eval_bind_ok {operation : FileTree.Action α} {next : α → FileTree.Action β}
    {tree middle : FileTree} {value : α} (heval : eval operation tree = (.ok value, middle)) :
    eval (operation >>= next) tree = eval (next value) middle := by
  rw [eval_bind, heval]

theorem eval_bind_error {operation : FileTree.Action α} {next : α → FileTree.Action β}
    {tree middle : FileTree} {error : FileError}
    (heval : eval operation tree = (.error error, middle)) :
    eval (operation >>= next) tree = (.error error, middle) := by
  rw [eval_bind, heval]

@[simp]
theorem eval_map (change : α → β) (operation : FileTree.Action α) (tree : FileTree) :
    eval (change <$> operation) tree =
      ((eval operation tree).1.map change, (eval operation tree).2) := by
  rw [map_eq_pure_bind, eval_bind]
  rcases eval operation tree with ⟨_ | value, after⟩ <;> rfl

end FileTree.Action

theorem FileTree.eval_discard_fst (path : Path) (tree : FileTree) :
    ((FileTree.discard path).eval tree).1 = .ok () := by
  unfold FileTree.discard
  rw [Action.eval_tryCatch]
  rcases (FileTree.unlink path).eval tree with ⟨error | value, after⟩ <;> rfl

namespace Action

variable {α β : Type}

/-- How an operation ends on a host, and the world that it leaves. -/
def eval (action : Action α) (host : Host) (world : World) : Except Fault α × World :=
  (action.run host).run.run world

variable (host : Host) (world : World)

@[simp]
theorem eval_pure (value : α) : eval (pure value) host world = (.ok value, world) :=
  rfl

@[simp]
theorem eval_throw (fault : Fault) :
    eval (throw fault : Action α) host world = (.error fault, world) :=
  rfl

@[simp]
theorem eval_read : eval (read : Action Host) host world = (.ok host, world) :=
  rfl

@[simp]
theorem eval_get : eval (get : Action World) host world = (.ok world, world) :=
  rfl

@[simp]
theorem eval_set (after : World) : eval (set after : Action PUnit) host world = (.ok ⟨⟩, after) :=
  rfl

@[simp]
theorem eval_modify (change : World → World) :
    eval (modify change : Action PUnit) host world = (.ok ⟨⟩, change world) :=
  rfl

theorem eval_bind (action : Action α) (next : α → Action β) :
    eval (action >>= next) host world =
      match eval action host world with
      | (.ok value, after) => eval (next value) host after
      | (.error fault, after) => (.error fault, after) := by
  unfold eval
  simp only [ReaderT.run_bind, ExceptT.run_bind, StateT.run_bind]
  cases (action.run host).run.run world with
  | mk result after => cases result <;> rfl

theorem eval_tryCatch (action : Action α) (handler : Fault → Action α) :
    eval (tryCatch action handler) host world =
      match eval action host world with
      | (.ok value, after) => (.ok value, after)
      | (.error fault, after) => eval (handler fault) host after := by
  unfold eval ReaderT.run ExceptT.run StateT.run
  simp only [tryCatch, tryCatchThe, MonadExceptOf.tryCatch, ExceptT.tryCatch, ExceptT.mk,
    bind, StateT.bind]
  cases action host world with
  | mk result after => cases result <;> rfl

variable {host world}

theorem eval_bind_ok {action : Action α} {next : α → Action β} {value : α} {middle : World}
    (heval : eval action host world = (.ok value, middle)) :
    eval (action >>= next) host world = eval (next value) host middle := by
  rw [eval_bind, heval]

theorem eval_bind_error {action : Action α} {next : α → Action β} {fault : Fault} {middle : World}
    (heval : eval action host world = (.error fault, middle)) :
    eval (action >>= next) host world = (.error fault, middle) := by
  rw [eval_bind, heval]

/-- A sequence that comes to its end went through the value of its first part. -/
theorem of_eval_bind_ok {action : Action α} {next : α → Action β} {value : β} {after : World}
    (heval : eval (action >>= next) host world = (.ok value, after)) :
    ∃ first middle, eval action host world = (.ok first, middle) ∧
      eval (next first) host middle = (.ok value, after) := by
  rw [eval_bind] at heval
  rcases hfirst : eval action host world with ⟨fault | first, middle⟩
  · rw [hfirst] at heval
    simp at heval
  · rw [hfirst] at heval
    exact ⟨first, middle, rfl, heval⟩

variable (host world)

@[simp]
theorem eval_map (change : α → β) (action : Action α) :
    eval (change <$> action) host world =
      ((eval action host world).1.map change, (eval action host world).2) := by
  rw [map_eq_pure_bind, eval_bind]
  rcases eval action host world with ⟨_ | value, after⟩ <;> rfl

theorem eval_onFiles (operation : FileTree.Action α) :
    eval (onFiles operation) host world =
      ((operation.eval world.files).1.mapError Fault.ofFile,
        { world with files := (operation.eval world.files).2 }) := by
  rcases heval : operation.eval world.files with ⟨result, files⟩
  have hrun : operation.run world.files = (result, files) := heval
  unfold onFiles
  rw [eval_bind, eval_get]
  simp only [hrun]
  cases result <;> rfl

@[simp]
theorem eval_refuse_true (fault : Fault) :
    eval (refuse true fault) host world = (.error fault, world) :=
  rfl

@[simp]
theorem eval_refuse_false (fault : Fault) : eval (refuse false fault) host world = (.ok (), world) :=
  rfl

theorem eval_handle (answers : Fault → Bool) (handler : Fault → Action α) (action : Action α) :
    eval (action.handle answers handler) host world =
      match eval action host world with
      | (.ok value, after) => (.ok value, after)
      | (.error fault, after) =>
        if answers fault then eval (handler fault) host after else (.error fault, after) := by
  unfold handle
  rw [eval_tryCatch]
  rcases eval action host world with ⟨fault | value, after⟩
  · cases hanswers : answers fault <;> simp [hanswers]
  · rfl

theorem eval_explain (answers : Fault → Bool) (outer : Fault → Fault) (action : Action α) :
    eval (action.explain answers outer) host world =
      match eval action host world with
      | (.ok value, after) => (.ok value, after)
      | (.error fault, after) =>
        (.error (if answers fault then .because (outer fault) fault else fault), after) := by
  unfold explain
  rw [eval_handle]
  rcases eval action host world with ⟨fault | value, after⟩
  · cases hanswers : answers fault <;> simp [hanswers]
  · rfl

/-- Faults that are answered become values. -/
theorem eval_caught (answers : Fault → Bool) (action : Action α) :
    eval (handle answers (fun fault => pure (.error fault)) (Except.ok <$> action)) host world =
      match eval action host world with
      | (.ok value, after) => (.ok (.ok value), after)
      | (.error fault, after) =>
        (if answers fault then .ok (.error fault) else .error fault, after) := by
  rw [eval_handle, eval_map]
  rcases eval action host world with ⟨fault | value, after⟩
  · cases hanswers : answers fault <;> simp [hanswers, Except.map]
  · rfl

@[simp]
theorem eval_outcome (action : Action α) :
    eval action.outcome host world = (.ok (eval action host world).1, (eval action host world).2) := by
  unfold outcome
  rw [eval_tryCatch, eval_map]
  rcases eval action host world with ⟨fault | value, after⟩ <;> rfl

@[simp]
theorem eval_ofExcept {ε : Type} (fault : ε → Fault) (result : Except ε α) :
    eval (ofExcept fault result) host world = (result.mapError fault, world) := by
  cases result <;> rfl

@[simp]
theorem eval_ofResult (result : Except Fault α) :
    eval (ofResult result) host world = (result, world) := by
  cases result <;> rfl

variable {host world} in
theorem of_eval_onFiles_ok {operation : FileTree.Action α} {value : α} {after : World}
    (heval : eval (onFiles operation) host world = (.ok value, after)) :
    ∃ files, operation.eval world.files = (.ok value, files) ∧ after = { world with files } := by
  rw [eval_onFiles] at heval
  rcases hoperation : operation.eval world.files with ⟨error | found, files⟩
  · rw [hoperation] at heval
    cases (Prod.mk.inj heval).1
  · rw [hoperation] at heval
    obtain ⟨hvalue, rfl⟩ := Prod.mk.inj heval
    obtain rfl : found = value := Except.ok.inj hvalue
    exact ⟨files, rfl, rfl⟩

variable {host world} in
theorem of_eval_refuse_ok {so : Bool} {fault : Fault} {value : Unit} {after : World}
    (heval : eval (refuse so fault) host world = (.ok value, after)) :
    so = false ∧ after = world := by
  cases so with
  | false => exact ⟨rfl, (Prod.mk.inj heval).2.symm⟩
  | true => cases heval

variable {host world} in
theorem of_eval_explain_ok {action : Action α} {answers : Fault → Bool} {outer : Fault → Fault}
    {value : α} {after : World}
    (heval : eval (action.explain answers outer) host world = (.ok value, after)) :
    eval action host world = (.ok value, after) := by
  rw [eval_explain] at heval
  rcases haction : eval action host world with ⟨fault | found, middle⟩
  · simp [haction] at heval
  · rw [haction] at heval
    exact heval

variable {host world} in
/-- What was caught is a value or a fault that is answered. -/
theorem of_eval_caught_ok {answers : Fault → Bool} {action : Action α} {caught : Except Fault α}
    {after : World}
    (heval : eval (handle answers (fun fault => pure (.error fault)) (Except.ok <$> action)) host
      world = (.ok caught, after)) :
    eval action host world = (caught, after) ∧ ∀ fault, caught = .error fault → answers fault := by
  rw [eval_caught] at heval
  rcases haction : eval action host world with ⟨fault | value, found⟩ <;> rw [haction] at heval
  · cases hanswers : answers fault with
    | false => simp [hanswers] at heval
    | true =>
      obtain ⟨rfl, rfl⟩ : .error fault = caught ∧ found = after := by simpa [hanswers] using heval
      exact ⟨rfl, by rintro _ ⟨⟩; exact hanswers⟩
  · obtain ⟨rfl, rfl⟩ : .ok value = caught ∧ found = after := by simpa using heval
    exact ⟨rfl, by rintro _ ⟨⟩⟩

/-- Discarding a file never ends the action that it follows. -/
theorem eval_discarding (path : Path) (action : Action α) :
    eval (action.discarding path) host world =
      ((eval action host world).1,
        { (eval action host world).2 with
          files := ((FileTree.discard path).eval (eval action host world).2.files).2 }) := by
  unfold discarding
  rw [eval_bind_ok (eval_outcome host world action), eval_bind, eval_onFiles,
    FileTree.eval_discard_fst]
  cases (eval action host world).1 <;> rfl

theorem eval_withSibling (path : Path) (use : Path → Action α) :
    eval (withSibling path use) host world =
      match (FileTree.newSibling path).eval world.files with
      | (.error error, files) => (.error (.ofFile error), { world with files })
      | (.ok sibling, files) =>
        eval ((use sibling).discarding sibling) host { world with files } := by
  unfold withSibling
  rw [eval_bind, eval_onFiles]
  rcases (FileTree.newSibling path).eval world.files with ⟨error | sibling, files⟩ <;> rfl

/-- What has a value ends with it. -/
theorem ok_of_toOption {ε α : Type} {result : Except ε α} {value : α}
    (hvalue : result.toOption = some value) : result = .ok value := by
  cases result with
  | ok found => exact congrArg Except.ok (Option.some.inj hvalue)
  | error fault => cases hvalue

/-- An ending is its value and the world that it leaves. -/
theorem eq_of_value {α : Type} {ending : Except Fault α × World} {value : α}
    (hvalue : ending.1.toOption = some value) : ending = (.ok value, ending.2) :=
  Prod.ext (ok_of_toOption hvalue) rfl

theorem eq_of_fault {α : Type} {ending : Except Fault α × World} {fault : Fault}
    (hfault : (match ending.1 with | .error found => some found | .ok _ => none) = some fault) :
    ending = (.error fault, ending.2) := by
  obtain ⟨_ | _, _⟩ := ending <;> simp_all

end Action

/-! ### Calls of tools -/

namespace Tool

/-- How a tool answers a call, and the world that it leaves. -/
def answered (host : Host) (toolCall : ToolCall) (world : World) : ToolResult × World :=
  let (result, files) := host.tools world.calls toolCall world.files
  (result, { world with
    files := { files with here := world.files.here }, calls := world.calls ++ [toolCall] })

theorem eval_call (host : Host) (toolCall : ToolCall) (world : World) :
    (call toolCall).eval host world =
      (.ok (answered host toolCall world).1, (answered host toolCall world).2) :=
  rfl

section Status

variable {result : ToolResult} (host : Host) (world : World) (fault : Fault)

/-- A tool that exits with zero is not refused. -/
theorem eval_refuse_good (hstatus : result.status = 0) :
    (Action.refuse (!result.isOk) fault).eval host world = (.ok (), world) := by
  have hok : (!result.isOk) = false := by simp [ToolResult.isOk, hstatus]
  rw [hok, Action.eval_refuse_false]

theorem eval_refuse_bad (hstatus : result.status ≠ 0) :
    (Action.refuse (!result.isOk) fault).eval host world = (.error fault, world) := by
  have hbad : (!result.isOk) = true := by simp [ToolResult.isOk, hstatus]
  rw [hbad, Action.eval_refuse_true]

end Status

end Tool

/-! ### A small world -/

/-- No address answers, and tools do nothing. -/
def Host.idle : Host where
  network := fun _ _ => .failure (.of .connectError "")
  tools := fun _ call files => (⟨call.argv, 0, "", "", 0⟩, files)
  environment := []
  searchPath := []
  clock := ""
  hostName := ""
  processId := 0
  freshId := ""

/-- An empty directory to work in. -/
def FileTree.bare : FileTree :=
  ⟨[(["work"], .directory)], ["work"]⟩

end JarRefinery
