import HtmlViews.Proofs.Engine.Request
import HtmlViews.Proofs.Render.Consumption
import HtmlViews.Proofs.Render.Nesting
import HtmlViews.Proofs.Render.Stages

/-!
# How a message is delivered

A message is put into the page as it is, whatever it contains, and it is the only thing that goes
from the session. But the stage of messages is only the first one: the later stages read the page
with the message in it, so a message that spells a directive is expanded like any other text.

The view is a block of messages and nothing else, so the stage of messages makes the message out of
it, takes it from the store and reports that. What is left of the session is what it would be if the
message that waited before had been taken (**Store.takeMessage_flash**). What follows is a render of
the message as a text by the other stages; if none of them finds anything in it, the page is the
message.

* **Message.display** — the text of a view that shows one message.
* **Message.run_expand_display** — this view without the later stages.
* **Engine.view_display** — this view.
* **Visit.deliver** — a visit after its message was delivered.
-/

namespace HtmlViews

/-- Words have no quotes in them. -/
theorem isQuote_of_isWord {c : Char} (h : isWord c = true) : isQuote c = false := by
  by_contra hquote
  rw [Bool.not_eq_false, isQuote_iff] at hquote
  rcases hquote with rfl | rfl
  · exact absurd h (by decide +kernel)
  · exact absurd h (by decide +kernel)

/-! ## Taking what was left -/

/-- A key that is removed may have been set before. -/
theorem Dict.erase_insert {α : Type} (d : Dict α) (k : String) (v : α) :
    (d.insert k v).erase k = d.erase k := by
  refine ext fun k' => ?_
  rw [find?_erase, find?_erase, find?_insert]
  by_cases hk : k = k'
  · rw [if_pos hk, if_pos hk]
  · rw [if_neg hk, if_neg hk, if_neg hk]

/-- A message that was left waits. -/
theorem Store.peekMessage_flash (store : Store) (name message : String) :
    (store.flash name message).peekMessage name = some message :=
  (Dict.find?_insert _ _ _ _).trans (if_pos rfl)

/-- To leave a message and take it comes to the same as to take the one that waited before. -/
theorem Store.takeMessage_flash (store : Store) (name message : String) :
    ((store.flash name message).takeMessage name).2 = (store.takeMessage name).2 :=
  congrArg (Store.mk · store.errors) (Dict.erase_insert _ _ _)

/-! ## A view of one message -/

namespace Message

/-- The text of a view that shows the message under a name and nothing else. -/
def display (name : String) : Text :=
  "@message('".toList ++ name.toList ++ "')\x7b\x7b message \x7d\x7d@endmessage".toList

/-- The block that this view consists of. -/
def displayed (name : String) : Block :=
  { name := name.toList, body := "\x7b\x7b message \x7d\x7d".toList }

variable {name : String}

/-- The same block as it is written, if the name is a word. -/
def displaying (hne : name ≠ "") (hword : ∀ c ∈ name.toList, isWord c = true) : Directive where
  quoted :=
    { left := '\'', argument := name.toList, right := '\''
      isQuote_left := rfl
      isQuote_right := rfl
      ne_nil := mt String.toList_eq_nil_iff.mp hne
      plain := fun c hc => ⟨isQuote_of_isWord (hword c hc), rfl⟩ }
  body := (displayed name).body
  endMark_not_infix := by
    show ¬ endMark <:+: "\x7b\x7b message \x7d\x7d".toList
    decide

/-- The block is written as the text of the view. -/
theorem text_displaying (hne : name ≠ "") (hword : ∀ c ∈ name.toList, isWord c = true) :
    (displaying hne hword).text = display name := by
  have hdisplay : display name = opening ++ ['\''] ++ name.toList ++
      (['\'', ')'] ++ ((displayed name).body ++ endMark)) := by
    rfl
  show opening ++ ('\'' :: (name.toList ++ ['\'', ')']) ++ ((displayed name).body ++ endMark)) = _
  rw [hdisplay]
  simp only [List.append_assoc, List.cons_append, List.nil_append]

/-- The block of this view is read up to its end mark. -/
theorem read_display (hne : name ≠ "") (hword : ∀ c ∈ name.toList, isWord c = true) :
    reader.read (display name) = some (displayed name, []) := by
  rw [← text_displaying hne hword, ← List.append_nil (displaying hne hword).text]
  exact (displaying hne hword).read_text []

/-- The message takes the place of the placeholder, whatever it contains. -/
theorem fill_display (message : String) :
    (displayed name).fill message = message.toList := by
  have hread : (markerReader "message".toList).read "\x7b\x7b message \x7d\x7d".toList =
      some ((), []) := by
    decide +kernel
  rw [Block.fill, displayed, Text.expand, Text.pieces_of_some hread, Text.pieces_nil]
  exact List.append_nil _

/-- The stage of messages makes the message out of this view, and takes nothing else. -/
theorem run_expand_display (hne : name ≠ "") (hword : ∀ c ∈ name.toList, isWord c = true)
    {store : Store} {message : String} (h : store.peekMessage name = some message) :
    (expand (display name)).run store =
      ⟨(message.toList, (store.takeMessage name).2), [.consumedMessage name]⟩ := by
  have hshow : (displayed name).show store =
      ⟨(message.toList, (store.takeMessage name).2), [.consumedMessage name]⟩ := by
    have hofList : String.ofList (displayed name).name = name := String.ofList_toList
    rw [← hofList] at h
    rw [Block.show_of_some h, fill_display, hofList]
  have hexpand : expand (display name) =
      List.flatten <$> (fun s => [s]) <$> (displayed name).show := by
    unfold expand Text.expandM
    rw [Text.pieces_of_some (read_display hne hword), Text.pieces_nil]
    simp
  rw [hexpand, StateT.run_map, StateT.run_map]
  show (_ <$> _ <$> (displayed name).show store) = _
  rw [hshow]
  apply Logged.ext
  · simp
  · simp

end Message

/-! ## The whole view -/

/-- The visit after the message under a name was delivered: that message is gone from the session,
which is reported, and nothing else has changed. -/
def Visit.deliver (visit : Visit) (name : String) : Visit where
  session := { visit.session with store := (visit.session.store.takeMessage name).2 }
  log := visit.log ++ [.consumedMessage name]

/-- A view of one message is rendered by the later stages alone, from the message and after its
delivery. -/
theorem Render.exec_text_display {name : String} (hne : name ≠ "")
    (hword : ∀ c ∈ name.toList, isWord c = true) (engine : Engine) (context : Context)
    {visit : Visit} {message : String}
    (h : visit.session.store.peekMessage name = some message) (stack : CallStack) :
    (text engine context (Message.display name)).exec ⟨visit, stack⟩ =
      (through (laterStages engine (text engine) context) message.toList).exec
        ⟨visit.deliver name, stack⟩ := by
  have hrun : (Visit.withStore (Message.expand (Message.display name))).run visit =
      (message.toList, visit.deliver name) := by
    show (((Message.expand (Message.display name)).run visit.session.store).value.1, _) = _
    rw [Message.run_expand_display hne hword h]
    rfl
  have hmessages : (onVisit (Visit.withStore (Message.expand (Message.display name)))).exec
      ⟨visit, stack⟩ = (.ok message.toList, ⟨visit.deliver name, stack⟩) := by
    rw [exec_onVisit, hrun]
  rw [text_eq, pass_eq, exec_bind_of_ok hmessages]

namespace Engine

/-- **A message is delivered as it is**, by a view that shows it and nothing else. After it was
left, the view is what the stages behind that of messages make of it, whatever it contains, in the
session from which that message is gone and nothing else. So it is the message itself, and nothing
else is consumed, if none of those stages finds anything in it. -/
theorem view_display {e : Engine} {view name : String} {t : Template}
    (htemplate : e.template? view = some t) (hsource : t.source.toList = Message.display name)
    (hne : name ≠ "") (hword : ∀ c ∈ name.toList, isWord c = true) (message : String)
    (context : Context) (visit : Visit) :
    let flashed : Visit := { visit with session.store := visit.session.store.flash name message }
    let delivered := ({ visit with log := visit.log ++ [.view view] } : Visit).deliver name
    (e.view view context).exec flashed =
        (do
          let content ← Render.run (e.stack .origin view)
            (Render.through (Render.laterStages e (Render.text e) context) message.toList)
          pure ⟨content, .rendered⟩ : Request View).exec delivered ∧
      (Render.Unread message.toList [] →
        (e.view view context).exec flashed = (.ok ⟨message.toList, .rendered⟩, delivered)) := by
  intro flashed delivered
  have hdelivered : ({ flashed with log := flashed.log ++ [.view view] } : Visit).deliver name =
      delivered := by
    unfold Visit.deliver
    rw [Store.takeMessage_flash]
    rfl
  have hview : (e.view view context).exec flashed = (do
      let content ← Render.run (e.stack .origin view)
        (Render.through (Render.laterStages e (Render.text e) context) message.toList)
      pure ⟨content, .rendered⟩ : Request View).exec delivered := by
    rw [exec_view htemplate, hsource]
    apply Request.exec_bind_congr
    rw [Request.exec_run, Request.exec_run,
      Render.exec_text_display hne hword e context (Store.peekMessage_flash _ name message),
      hdelivered]
  refine ⟨hview, ?_⟩
  intro hunread
  rw [hview, Render.through_of_unread hunread]
  rfl

/-- The name of the message below is a word. -/
theorem isWord_of_mem_n : ∀ c ∈ "n".toList, isWord c = true := by
  show ∀ c ∈ ['n'], isWord c = true
  intro c hc
  rw [List.mem_singleton.mp hc]
  decide

/-- A message with a dollar sign that spells a block of its own: the block is not expanded, and its
message goes on waiting. -/
theorem view_display_block :
    let message := "Paid $1 @message('k')x@endmessage"
    let e := empty.add "page" (String.ofList (Message.display "n"))
    let visit : Visit :=
      { session := { store := Store.empty.flash "k" "kept", csrf := .constant "t" } }
    let flashed : Visit := { visit with session.store := visit.session.store.flash "n" message }
    (Render.Unread message.toList [] ∧ ∀ c ∈ "n".toList, isWord c = true) ∧
      ((e.view "page" .empty).exec flashed).1.toOption = some ⟨message.toList, .rendered⟩ ∧
      ((e.view "page" .empty).exec flashed).2.session.store.peekMessage "k" = some "kept" := by
  intro message e visit flashed
  have hunread : Render.Unread message.toList [] := by
    constructor <;> decide
  have htemplate : e.template? "page" =
      some { name := "page", path := none, source := String.ofList (Message.display "n") } := by
    rfl
  have hview := (view_display htemplate String.toList_ofList (by decide) isWord_of_mem_n message
    .empty visit).2 hunread
  refine ⟨⟨hunread, isWord_of_mem_n⟩, ?_, ?_⟩
  · rw [hview]
    rfl
  · rw [hview]
    rfl

/-- A message is not delivered as it is whatever it contains: one that spells a placeholder is
replaced by the stage behind. -/
theorem not_forall_view_display :
    ¬ ∀ (e : Engine) (view name message : String) (t : Template) (context : Context)
      (visit : Visit), e.template? view = some t → t.source.toList = Message.display name →
      name ≠ "" → (∀ c ∈ name.toList, isWord c = true) →
      ((e.view view context).exec
        { visit with session.store := visit.session.store.flash name message }).1.toOption =
          some ⟨message.toList, .rendered⟩ := by
  intro h
  have hview := h (empty.add "page" (String.ofList (Message.display "n"))) "page" "n"
    "\x7b\x7b x \x7d\x7d" _ .empty { session := { store := .empty, csrf := .constant "t" } } rfl
    String.toList_ofList (by decide) isWord_of_mem_n
  exact absurd hview (by decide +kernel)

end Engine

end HtmlViews
