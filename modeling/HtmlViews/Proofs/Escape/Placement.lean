import HtmlViews.Fragment
import HtmlViews.Proofs.Escape.Decoding
import HtmlViews.Proofs.Text.Interleaved
import HtmlViews.Proofs.Text.Parts
import HtmlViews.Session.CsrfToken

/-!
# Escaped text in its place

Escaped text is put into the value of a form field and between the tags of an error fragment. It
does not contain what ends these places, so it is all there, and what stands behind it is what was
meant to stand there.

The place of a text ends at the first character that ends it: the value of a field at the first
quote, a text between tags at the first angle bracket. So it is enough that escaped texts have no
such characters (**not_mem_escape**), and that nothing before them looks like the beginning of
another place. The fragment is therefore written as tags with texts between them, in which angle
brackets cannot occur by their type, and proved to be the text of these.

* **Tag**, **Markup** — tags, and texts without angle brackets between them.
* **cut?_csrfField** — the value of a form field as it is found in the field.
* **fragmentMarkup**, **text_fragmentMarkup** — a detailed fragment as tags with texts between them.
* **escaped_stays** — what an escaped text is, and that it stays in these two places.
-/

namespace HtmlViews

/-! ## Tags -/

/-- A tag: what stands between its angle brackets. -/
structure Tag where
  /-- The text between the brackets. -/
  inside : Text
  opening_not_mem : '<' ∉ inside
  closing_not_mem : '>' ∉ inside

/-- A tag as it is written. -/
def Tag.text (tag : Tag) : Text :=
  '<' :: (tag.inside ++ ['>'])

/-- Tags and texts without angle brackets between them. -/
abbrev Markup : Type :=
  Interleaved (fun t => '<' ∉ t ∧ '>' ∉ t) Tag

/-! ## Form fields -/

/-- What stands in a form field before the beginning of the value. -/
def fieldFront : Text :=
  "<input type=\"hidden\" name=\"csrf_token\" ".toList

/-- The field of a token has the token, escaped, between the quotes of its value. -/
theorem csrfField_eq (token : String) :
    csrfField token =
      fieldFront ++ ("value=\"".toList ++ (escape token.toList ++ '"' :: " />".toList)) := by
  have hopening : "<input type=\"hidden\" name=\"csrf_token\" value=\"".toList =
      fieldFront ++ "value=\"".toList := by
    decide
  have hclosing : "\" />".toList = '"' :: " />".toList := by
    decide
  unfold csrfField
  rw [hopening, hclosing]
  exact (List.append_assoc _ _ _).trans (List.append_assoc _ _ _)

/-- In a form field the value begins behind its name, and ends at the first quote, with all of the
token in it. -/
theorem cut?_csrfField (token : String) :
    Text.cut? "value=\"".toList (csrfField token) =
        some (fieldFront, escape token.toList ++ '"' :: " />".toList) ∧
      Text.cut? ['"'] (escape token.toList ++ '"' :: " />".toList) =
        some (escape token.toList, " />".toList) := by
  have hfront : 'v' ∉ fieldFront := by
    decide
  constructor
  · rw [csrfField_eq]
    exact Text.cut?_mark (by decide) ((beginsWith_literal rfl).passes hfront _)
  · exact Text.cut?_run (not_mem_escape (by decide) _) _

/-! ## Fragments -/

/-- The names of all kinds of failures. -/
def kindNames : List String :=
  ["error", "template-not-found", "component-not-found", "layout-not-found", "malformed-directive",
    "expression-evaluation", "recursion-limit-exceeded", "io"]

/-- Every failure has one of the names of kinds. -/
theorem kindName_mem (f : Failure) : f.kindName ∈ kindNames := by
  unfold Failure.kindName
  split <;> decide

/-- The name of a kind of failures stays in its place too. -/
theorem not_mem_kindName {c : Char} (hc : c ∈ ['<', '>', '"']) (f : Failure) :
    c ∉ f.kindName.toList := by
  have hnames : ∀ name ∈ kindNames, c ∉ name.toList := by
    simp only [List.mem_cons, List.not_mem_nil, or_false] at hc
    rcases hc with rfl | rfl | rfl <;> decide
  exact hnames _ (kindName_mem f)

/-- What stands in the first tag of a detailed fragment before the name of the kind. -/
def divFront : Text :=
  "div class=\"vista-error\" data-kind=\"".toList

/-- The tag that a detailed fragment begins with: it names the kind of failure. -/
def divTag (f : Failure) : Tag where
  inside := divFront ++ (f.kindName.toList ++ ['"'])
  opening_not_mem := by
    have hfront : '<' ∉ divFront := by
      decide
    simp [hfront, not_mem_kindName (c := '<') (by decide) f]
  closing_not_mem := by
    have hfront : '>' ∉ divFront := by
      decide
    simp [hfront, not_mem_kindName (c := '>') (by decide) f]

/-- The tag before the name of the kind. -/
def strongTag : Tag where
  inside := "strong".toList
  opening_not_mem := by decide
  closing_not_mem := by decide

/-- The tag behind the name of the kind. -/
def strongEnd : Tag where
  inside := "/strong".toList
  opening_not_mem := by decide
  closing_not_mem := by decide

/-- The tag that a detailed fragment ends with. -/
def divEnd : Tag where
  inside := "/div".toList
  opening_not_mem := by decide
  closing_not_mem := by decide

/-- A detailed fragment: the name of the kind and the messages, with tags around them. -/
def fragmentMarkup (f : Failure) : Markup where
  parts := [([], divTag f), ([], strongTag), (f.kindName.toList, strongEnd),
    (' ' :: escape f.fullMessage.toList, divEnd)]
  last := []
  kind := by
    have hkind : '<' ∉ f.kindName.toList ∧ '>' ∉ f.kindName.toList :=
      ⟨not_mem_kindName (by decide) f, not_mem_kindName (by decide) f⟩
    have hmessage : '<' ∉ ' ' :: escape f.fullMessage.toList ∧
        '>' ∉ ' ' :: escape f.fullMessage.toList := by
      constructor <;> rw [List.mem_cons, not_or]
      · exact ⟨by decide, not_mem_escape (by decide) _⟩
      · exact ⟨by decide, not_mem_escape (by decide) _⟩
    simp [hkind, hmessage]
  kind_last := ⟨List.not_mem_nil, List.not_mem_nil⟩

/-- A detailed fragment is its tags with the texts between them. -/
theorem text_fragmentMarkup (f : Failure) :
    (fragmentMarkup f).text Tag.text = fragment f true := by
  have hopening : "<div class=\"vista-error\" data-kind=\"".toList = '<' :: divFront := by
    decide
  have hstrong : "\"><strong>".toList = '"' :: '>' :: strongTag.text := by
    decide
  have hstrongEnd : "</strong> ".toList = strongEnd.text ++ [' '] := by
    decide
  have hdivEnd : "</div>".toList = divEnd.text := by
    decide
  have hdiv : (divTag f).text = '<' :: (divFront ++ (f.kindName.toList ++ ['"', '>'])) := by
    simp only [Tag.text, divTag, List.append_assoc, List.singleton_append]
  unfold fragment
  rw [if_pos rfl, hopening, hstrong, hstrongEnd, hdivEnd]
  simp only [fragmentMarkup, Interleaved.text, Interleaved.textFrom, hdiv, List.append_assoc,
    List.cons_append, List.nil_append, List.append_nil]

/-! ## The main result -/

/-- **Escaped text stays in its place, and nothing of it is lost.** It has no angle brackets, quotes
or slashes, each of its ampersands begins an entity, one of those that characters are written as,
and with the entities replaced by their characters it is the text that was escaped. So different
texts are different when escaped, the value of a form field is all of the token and only the end of
the tag stands behind it, and a detailed fragment has no angle brackets but those of its four tags.
-/
theorem escaped_stays :
    (∀ s : Text, (∀ c ∈ ['<', '>', '"', '\'', '/'], c ∉ escape s) ∧
        (∀ t, '&' :: t <:+ escape s → ∃ e ∈ entities, e.1 <+: '&' :: t) ∧
        unescape (escape s) = s) ∧
      (∀ e ∈ entities, escape [e.2] = e.1) ∧
      Function.Injective escape ∧
      (∀ token : String, ∃ front behind shown,
        Text.cut? "value=\"".toList (csrfField token) = some (front, behind) ∧
          Text.cut? ['"'] behind = some (shown, " />".toList) ∧
          unescape shown = token.toList) ∧
      ∀ f : Failure, ∃ markup : Markup,
        markup.text Tag.text = fragment f true ∧
          markup.parts.map Prod.snd = [divTag f, strongTag, strongEnd, divEnd] := by
  refine ⟨fun s => ⟨fun c hc => not_mem_escape hc s, fun t => exists_entity_of_suffix,
    unescape_escape s⟩, by decide, escape_injective, fun token => ?_, fun f => ?_⟩
  · obtain ⟨hvalue, hquote⟩ := cut?_csrfField token
    exact ⟨_, _, _, hvalue, hquote, unescape_escape _⟩
  · exact ⟨fragmentMarkup f, text_fragmentMarkup f, rfl⟩

/-- A text that looks like an entity, with a quote and a closing tag behind it: its ampersand is
escaped again, and it is read back as it was. -/
theorem escaped_stays_lookalike :
    '"' ∉ escape "&lt;\"</b>".toList ∧
      (∃ e ∈ entities, e.1 <+: "&amp;lt;&quot;&lt;&#x2F;b&gt;".toList) ∧
      unescape "&amp;lt;&quot;&lt;&#x2F;b&gt;".toList = "&lt;\"</b>".toList ∧
      escape ['/'] = "&#x2F;".toList := by
  obtain ⟨hplace, hentities, -⟩ := escaped_stays
  obtain ⟨hspecial, hampersands, hback⟩ := hplace "&lt;\"</b>".toList
  have hescape : escape "&lt;\"</b>".toList = "&amp;lt;&quot;&lt;&#x2F;b&gt;".toList := by
    decide
  rw [hescape] at hampersands hback
  refine ⟨hspecial '"' (by decide), hampersands _ (List.suffix_refl _), hback, ?_⟩
  exact hentities ("&#x2F;".toList, '/') (by decide)

end HtmlViews
