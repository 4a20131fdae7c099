import HtmlViews.Config
import HtmlViews.Proofs.Dict
import HtmlViews.Proofs.Text.Parts

/-!
# Settings line by line

Every line of a text makes a setting of its own or none, so it does not matter whether two texts are
read one behind the other, or each for itself with the settings of the second put over those of the
first.

Settings are put into a dictionary line by line, later ones over earlier ones. Instead of following
the dictionary, the proof lists the settings that the lines make (**Config.assignments**): the lines
of two texts in a row are those of the one and then those of the other, and a dictionary made of two
lists in a row is the second one put over the first (**Dict.ofList_append**).

* **Config.assignments** — the settings that the lines of a text make, in their order.
* **Config.setting?_append_cons**, **Config.setting?_of_not_mem**, **Config.setting?_comment** —
  what a line makes.
* **Config.parse_append_feed** — two texts with a line feed between them.
* **Config.parse_eq_ofList** — the settings are the dictionary of this list.
-/

namespace HtmlViews.Config

/-! ## Lines -/

/-- A line makes the same setting with blanks behind it. -/
theorem setting?_append {blanks : Text} (hblanks : ∀ c ∈ blanks, isBlank c = true) (s : Text) :
    setting? (s ++ blanks) = setting? s := by
  have htrim : Text.trim (s ++ blanks) = Text.trim s := Text.strip_append_right hblanks s
  unfold setting?
  rw [htrim]

/-- A line without an equals sign makes no setting. -/
theorem setting?_of_not_mem {s : Text} (h : '=' ∉ s) : setting? s = none := by
  have htrim : '=' ∉ Text.trim s := by
    intro hmem
    exact h ((List.dropWhile_suffix isBlank).subset ((Text.dropEnd_isPrefix isBlank _).subset hmem))
  have hcut : Text.cut? ['='] (Text.trim s) = none :=
    Text.cut?_eq_none (List.cons_ne_nil _ _) ((beginsWith_literal rfl).passes htrim [])
  simp only [setting?, hcut, Option.map_none, ite_self]

/-- A line whose first character that is no blank is a number sign makes no setting. -/
theorem setting?_comment {indent : Text} (hindent : ∀ c ∈ indent, isBlank c = true) (s : Text) :
    setting? (indent ++ '#' :: s) = none := by
  have htrim : Text.trim (indent ++ '#' :: s) = '#' :: Text.dropEnd isBlank s := by
    rw [Text.trim, Text.strip_append_left hindent, Text.strip,
      List.dropWhile_cons_of_neg (by decide)]
    exact Text.dropEnd_append_cons (by decide) [] s
  unfold setting?
  rw [htrim]
  exact if_pos (.inr rfl)

/-- A line is a name and a value with the first equals sign of the line between them, unless it is a
comment. -/
theorem setting?_append_cons {front : Text} (h : '=' ∉ front) (back : Text) :
    setting? (front ++ '=' :: back) =
      if (Text.trim front).head? = some '#' then none
      else some (String.ofList (Text.trim front),
        String.ofList (Text.strip isQuote (Text.trim back))) := by
  -- The equals sign is no blank, so that each side is trimmed at its outer end only.
  have htrim : Text.trim (front ++ '=' :: back) =
      Text.dropBlanks front ++ '=' :: Text.dropEnd isBlank back := by
    rw [Text.trim, Text.strip, Text.dropWhile_append_cons (by decide),
      Text.dropEnd_append_cons (by decide), Text.dropBlanks]
  have hne : Text.dropBlanks front ++ '=' :: Text.dropEnd isBlank back ≠ [] :=
    List.append_ne_nil_of_right_ne_nil _ (List.cons_ne_nil _ _)
  have hhead : (Text.dropBlanks front ++ '=' :: Text.dropEnd isBlank back).head? = some '#' ↔
      (Text.trim front).head? = some '#' := by
    rw [Text.trim, Text.head?_strip, ← Text.dropBlanks]
    cases Text.dropBlanks front with
    | nil => simp
    | cons c s => rfl
  have hname : '=' ∉ Text.dropBlanks front :=
    fun hmem => h ((List.dropWhile_suffix isBlank).subset hmem)
  have htrimName : Text.trim (Text.dropBlanks front) = Text.trim front :=
    Text.strip_dropWhile isBlank front
  have htrimValue : Text.trim (Text.dropEnd isBlank back) = Text.trim back :=
    Text.strip_dropEnd isBlank back
  simp only [setting?, htrim, hne, hhead, false_or, Text.cut?_run hname, Option.map_some,
    htrimName, htrimValue]

/-! ## Texts -/

/-- The settings that the lines of a text make, in the order of the lines. -/
def assignments (s : Text) : List (String × String) :=
  (Text.splitOn '\n' s).filterMap setting?

/-- Settings are the dictionary of the assignments in a text. -/
theorem parse_eq_ofList (s : Text) : parse s = ⟨.ofList (assignments s)⟩ :=
  rfl

/-- A text of one line makes the setting of this line. -/
theorem assignments_of_not_mem {s : Text} (h : '\n' ∉ s) :
    assignments s = (setting? s).toList := by
  rw [assignments, Text.splitOn_run h]
  cases hsetting : setting? s with
  | none => exact List.filterMap_cons_none hsetting
  | some e => exact List.filterMap_cons_some hsetting

/-- The lines of two texts with a line feed between them are the lines of the one and of the
other. -/
theorem assignments_append_feed (s t : Text) :
    assignments (s ++ '\n' :: t) = assignments s ++ assignments t := by
  rw [assignments, Text.splitOn_append_cons, List.filterMap_append, assignments, assignments]

/-- **Two texts with a line feed between them have the settings of the first one, with those of the
second one put over them.** So it is one and the same whether a later line counts since it is read
later, or since its settings override the ones before. -/
theorem parse_append_feed (s t : Text) : parse (s ++ '\n' :: t) = (parse s).merge (parse t) := by
  rw [parse_eq_ofList, assignments_append_feed, Dict.ofList_append]
  rfl

end HtmlViews.Config
