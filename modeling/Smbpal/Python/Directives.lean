import Smbpal.Python.Text
import Smbpal.Lib.Directives

/-!
# Directives in Python Strings

The rules Samba and systemd read their files by, on the strings Python writes: a
newline ends a line, a backslash at its end joins it with the next, `[name]` starts a
section, and names and values are trimmed of spaces. The two differ in what they put
where they join two lines.

What counts as a space is left open (`Spaces`): the space does, and nothing that ASCII
can show.

## Main definitions

* `Spaces`: What a reader takes for a space.
* `spaceOnly`: A reader that trims spaces and nothing else.
* `Spaces.rules`: The rules of a reader.
* `isUpright`: A string that a reader trims nothing off and joins to nothing.
* `isKey`: A name that can stand in front of a `=`.

## Theorems

* `item_param`: What a line with a directive says, whatever its value.
* `item_section`: What a line with a name says.
* `param_not_comment`, `section_plain`: Lines that are no comments.
-/

namespace Smbpal

/-- What a reader takes for a space: the space itself, and nothing ASCII can show. -/
structure Spaces where
  blank : PyChar → Bool
  space : blank (chr ' ') = true
  visible : ∀ c, 33 ≤ ord c → ord c ≤ 126 → blank c = false

/-- A reader that trims spaces and nothing else. -/
def spaceOnly : Spaces where
  blank := fun c => decide (c = chr ' ')
  space := rfl
  visible := by
    intro c hlow _
    refine decide_eq_false ?_
    rintro rfl
    exact absurd hlow (by decide)

/-- The rules of a reader that puts `glue` where it joins two lines. -/
def Spaces.rules (sp : Spaces) (glue : Str) : Lib.LineRules PyChar where
  newline := chr '\n'
  escape := chr '\\'
  equals := chr '='
  opening := chr '['
  closing := chr ']'
  glue := glue
  blank := sp.blank
  comment := oneOf "#;"

/-- A character of ASCII that can be seen. -/
def isVisible (c : PyChar) : Bool :=
  decide (33 ≤ ord c) && decide (ord c ≤ 126)

/-- A string that a reader trims nothing off and joins to nothing. -/
def isUpright (s : Str) : Bool :=
  s.head?.any isVisible && s.getLast?.any fun c => isVisible c && decide (c ≠ chr '\\')

/-- A name that can stand in front of a `=`. -/
def isKey (key : Str) : Bool :=
  isUpright key && !key.head?.any (oneOf "[#;") && decide (chr '=' ∉ key)

namespace Spaces

variable (sp : Spaces) (glue : Str)

theorem blank_of_isVisible {c : PyChar} (h : isVisible c = true) : sp.blank c = false := by
  rw [isVisible, Bool.and_eq_true, decide_eq_true_eq, decide_eq_true_eq] at h
  exact sp.visible c h.1 h.2

theorem upright_ends {s : Str} (h : isUpright s = true) :
    (∀ c, s.head? = some c → isVisible c = true) ∧
      ∀ c, s.getLast? = some c → isVisible c = true ∧ c ≠ chr '\\' := by
  rw [isUpright, Bool.and_eq_true] at h
  constructor
  · intro c hc
    have hhead := h.1
    rw [hc] at hhead
    exact hhead
  · intro c hc
    have hlast := h.2
    rw [hc, Option.any_some, Bool.and_eq_true, decide_eq_true_eq] at hlast
    exact hlast

theorem upright_ne_nil {s : Str} (h : isUpright s = true) : s ≠ [] := by
  rintro rfl
  exact Bool.false_ne_true h

/-- Characters that can all be seen, none of them a backslash. -/
theorem isUpright_of_forall {s : Str} (hne : s ≠ [])
    (h : ∀ c ∈ s, isVisible c = true ∧ c ≠ chr '\\') : isUpright s = true := by
  cases s with
  | nil => exact absurd rfl hne
  | cons c s =>
      have hlast := h _ (List.getLast_mem (List.cons_ne_nil c s))
      rw [isUpright, List.head?_cons, List.getLast?_eq_some_getLast (List.cons_ne_nil c s),
        Option.any_some, Option.any_some, (h c List.mem_cons_self).1, hlast.1,
        decide_eq_true hlast.2]
      rfl

theorem trim_of_isUpright {s : Str} (h : isUpright s = true) : (sp.rules glue).trim s = s :=
  Lib.LineRules.trim_eq_self _
    (fun c hc => sp.blank_of_isVisible ((upright_ends h).1 c hc))
    (fun c hc => sp.blank_of_isVisible ((upright_ends h).2 c hc).1)

/-- Whether a line is joined is decided by what it ends with. -/
theorem continues_append (a : Str) {s : Str} (hs : s ≠ []) :
    (sp.rules glue).continues (a ++ s) = decide (s.getLast? = some (chr '\\')) := by
  unfold Lib.LineRules.continues
  rw [List.getLast?_append_of_ne_nil _ hs]
  rfl

theorem not_continues (a : Str) {s : Str} (h : isUpright s = true) :
    (sp.rules glue).continues (a ++ s) = false := by
  rw [sp.continues_append glue a (upright_ne_nil h)]
  exact decide_eq_false fun hlast => ((upright_ends h).2 _ hlast).2 rfl

theorem isKey_cons {key : Str} (h : isKey key = true) :
    ∃ c s, key = c :: s ∧ isVisible c = true ∧ oneOf "[#;" c = false ∧ isUpright key = true ∧
      chr '=' ∉ key := by
  rw [isKey, Bool.and_eq_true, Bool.and_eq_true, Bool.not_eq_true', decide_eq_true_eq] at h
  rcases h with ⟨⟨hup, hmark⟩, hno⟩
  cases key with
  | nil => exact absurd rfl (upright_ne_nil hup)
  | cons c s => exact ⟨c, s, rfl, (upright_ends hup).1 c rfl, hmark, hup, hno⟩

/-- What a line with a directive says, whatever its value. -/
theorem item_param {key lead gap : Str} (hkey : isKey key = true)
    (hlead : ∀ c ∈ lead, c = chr ' ') (hgap : ∀ c ∈ gap, c = chr ' ') (value : Str) :
    (sp.rules glue).item (lead ++ (key ++ gap ++ chr '=' :: value)) =
      .entry key ((sp.rules glue).trim value) := by
  have hspace : ∀ s : Str, (∀ c ∈ s, c = chr ' ') → ∀ c ∈ s, sp.blank c = true := by
    intro s hs c hc
    rw [hs c hc]
    exact sp.space
  rcases isKey_cons hkey with ⟨c, s, rfl, hc, hopen, hup, hno⟩
  refine Lib.LineRules.item_entry (sp.rules glue) (hspace lead hlead) (hspace gap hgap)
    (sp.blank_of_isVisible hc) (sp.blank_of_isVisible (c := chr '=') (by decide))
    (sp.trim_of_isUpright glue hup) ?_ hno value
  rintro rfl
  have hbracket : oneOf "[#;" (chr '[') = false := hopen
  exact absurd hbracket (by decide)

/-- What a line with a name says. -/
theorem item_section (name : Str) :
    (sp.rules glue).item (chr '[' :: name ++ [chr ']']) = .header ((sp.rules glue).trim name) :=
  Lib.LineRules.item_header (sp.rules glue) (sp.blank_of_isVisible (c := chr '[') (by decide))
    (sp.blank_of_isVisible (c := chr ']') (by decide)) name

/-- A line with a directive is no comment. -/
theorem param_not_comment {key lead : Str} (hkey : isKey key = true)
    (hlead : ∀ c ∈ lead, c = chr ' ') (rest : Str) :
    (sp.rules glue).isComment (lead ++ (key ++ rest)) = false := by
  have hblank : ∀ d ∈ lead, (sp.rules glue).blank d = true := by
    intro d hd
    rw [hlead d hd]
    exact sp.space
  rcases isKey_cons hkey with ⟨c, s, rfl, hc, hmark, -, -⟩
  have hcomment : oneOf "#;" c = false := by
    refine decide_eq_false fun hmem => ?_
    have hsub : ∀ d ∈ str "#;", d ∈ str "[#;" := by decide
    exact of_decide_eq_false hmark (hsub c hmem)
  rw [List.cons_append, Lib.LineRules.isComment_of_head _ hblank (sp.blank_of_isVisible hc)]
  exact hcomment

/-- A line with a name is neither a comment nor joined. -/
theorem section_plain (name : Str) :
    (sp.rules glue).isComment (chr '[' :: name ++ [chr ']']) = false ∧
      (sp.rules glue).continues (chr '[' :: name ++ [chr ']']) = false := by
  constructor
  · have hblank : ∀ d ∈ ([] : Str), (sp.rules glue).blank d = true := fun d hd => nomatch hd
    exact Lib.LineRules.isComment_of_head (sp.rules glue) hblank
      (sp.blank_of_isVisible (c := chr '[') (by decide)) (name ++ [chr ']'])
  · exact sp.not_continues glue (chr '[' :: name) (by decide)

/-- An empty line is neither, and says nothing. -/
theorem nil_plain :
    (sp.rules glue).isComment [] = false ∧ (sp.rules glue).continues [] = false :=
  ⟨rfl, rfl⟩

end Spaces

end Smbpal
