import HtmlViews.Render.Pass

/-!
# Computations put together

Much of what is said of a render is said of each of its steps and kept when steps are put together.
Here is what follows for a whole pass from what holds of its steps. A property of one computation is
a relation that takes no notice of the other one.

The properties that are proved in this way are: that what is consumed is reported
(**Render.Accounts**), that a render does the same under a higher limit (**Render.Raised**), that
two ways to render the inside of components agree (**Render.Alike**), and that a render does not
depend on the log (**Render.UpToLog**). For each of them it is shown that values alone have it and
that it is kept by putting one computation behind another; the rest, from the steps of a stage to a
whole pass, is here.

* **Compositional** — a relation between computations that is kept when they are put together.
* **Compositional.expandM** — it holds of a text with finds replaced if it holds of the
  replacements.
* **Visit.Step** — the steps of a pass on the session and the log.
* **Compositional.components** — it holds of the stage of components if it holds of components.
* **Compositional.pass** — it holds of a pass if it holds of these steps and of components.
* **Compositional.foldlM**, **Compositional.mapM** — it holds along a list.
-/

namespace HtmlViews

/-- Whether a relation between computations is kept when they are put together. -/
structure Compositional (m : Type → Type) [Monad m] (R : ∀ {α : Type}, m α → m α → Prop) :
    Prop where
  pure : ∀ {α : Type} (a : α), R (pure a) (pure a)
  bind : ∀ {α β : Type} {x y : m α} {f g : α → m β},
    R x y → (∀ a, R (f a) (g a)) → R (x >>= f) (y >>= g)

namespace Compositional

section Lists

variable {m : Type → Type} [Monad m] {R : ∀ {α : Type}, m α → m α → Prop} {α γ : Type}

/-- A relation that is kept when computations are put together is kept along a list. -/
theorem foldlM (h : Compositional m R) {f g : α → γ → m α} (hfg : ∀ a c, R (f a c) (g a c)) (a : α)
    (cs : List γ) : R (cs.foldlM f a) (cs.foldlM g a) := by
  induction cs generalizing a with
  | nil =>
    rw [List.foldlM_nil, List.foldlM_nil]
    exact h.pure a
  | cons c cs ih =>
    rw [List.foldlM_cons, List.foldlM_cons]
    exact h.bind (hfg a c) ih

variable [LawfulMonad m]

/-- It is kept when each element of a list is computed. -/
theorem mapM (h : Compositional m R) {f g : γ → m α} (hfg : ∀ c, R (f c) (g c)) (cs : List γ) :
    R (cs.mapM f) (cs.mapM g) := by
  induction cs with
  | nil =>
    rw [List.mapM_nil, List.mapM_nil]
    exact h.pure []
  | cons c cs ih =>
    rw [List.mapM_cons, List.mapM_cons]
    refine h.bind (hfg c) ?_
    intro a
    refine h.bind ih ?_
    intro as
    exact h.pure (a :: as)

/-- It is kept when what is read in a text is replaced. -/
theorem expandM (h : Compositional m R) (reader : Reader γ) {f g : γ → m Text}
    (hfg : ∀ c, R (f c) (g c)) (s : Text) :
    R (Text.expandM reader f s) (Text.expandM reader g s) := by
  refine h.bind (h.mapM ?_ _) fun parts => h.pure parts.flatten
  intro piece
  cases piece with
  | plain c => exact h.pure [c]
  | found c => exact hfg c

end Lists

end Compositional

/-- A step that a pass takes on the session and the log, components apart. -/
inductive Visit.Step : {α : Type} → StateM Visit α → Prop where
  /-- Messages are put in. -/
  | messages (s : Text) : Step (Visit.withStore (Message.expand s))
  /-- A directive for a component is no call. -/
  | warning (f : Failure) : Step (Visit.write (.failed f))
  /-- Conditional blocks are replaced. -/
  | conditionals (context : Context) (s : Text) :
    Step (Visit.logged (Conditional.expand context s))
  /-- Switches are replaced. -/
  | switches (context : Context) (s : Text) : Step (Visit.logged (Switch.expand context s))
  /-- Errors of form fields are put in. -/
  | errors (s : Text) : Step (Visit.withStore (Validation.expand s))
  /-- Tokens are put in. -/
  | tokens (s : Text) : Step (Visit.withCsrf (Csrf.expand s))

namespace Compositional

section Passes

variable {R : ∀ {α : Type}, Render α → Render α → Prop}

/-- It holds of a text with its components in place if it holds of components. -/
theorem components (h : Compositional Render R)
    (hstep : ∀ {α : Type} {x : StateM Visit α}, Visit.Step x →
      R (Render.onVisit x) (Render.onVisit x))
    {engine : Engine} {inner inner' : Context → Text → Render Text}
    (hcomponent : ∀ c, R (Render.component engine inner c) (Render.component engine inner' c))
    (s : Text) :
    R (Component.expand (fun entry => Render.onVisit (Visit.write entry))
        (Render.component engine inner) s)
      (Component.expand (fun entry => Render.onVisit (Visit.write entry))
        (Render.component engine inner') s) := by
  apply h.expandM
  intro found
  cases found with
  | call c => exact hcomponent c
  | malformed arguments => exact h.bind (hstep (.warning _)) fun _ => h.pure _
  | unclosed => exact h.bind (hstep (.warning _)) fun _ => h.pure _

/-- What is kept by composition holds of a pass if it holds of its steps and of components. -/
theorem pass (h : Compositional Render R)
    (hstep : ∀ {α : Type} {x : StateM Visit α}, Visit.Step x →
      R (Render.onVisit x) (Render.onVisit x))
    {engine : Engine} {inner inner' : Context → Text → Render Text}
    (hcomponent : ∀ c, R (Render.component engine inner c) (Render.component engine inner' c))
    (context : Context) (s : Text) :
    R (Render.pass engine inner context s) (Render.pass engine inner' context s) := by
  unfold Render.pass
  refine h.bind (hstep (.messages _)) fun s => ?_
  refine h.bind (h.components hstep hcomponent _) fun s => ?_
  refine h.bind (hstep (.conditionals _ _)) fun s => ?_
  refine h.bind (hstep (.switches _ _)) fun s => ?_
  refine h.bind (hstep (.errors _)) fun s => ?_
  exact hstep (.tokens _)

end Passes

end Compositional

end HtmlViews
