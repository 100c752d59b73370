import PageBuilder.Code.Declaration
import PageBuilder.Proofs.Code.Flat
import PageBuilder.Proofs.Page.Warnings

/-!
Declarations of state around given code. The code of a derived state has lines of its own, any other
given code shares its line with generated code. The declaration of a state that is not derived is
flat if the given code in it is; in general it is balanced unless given code at the end of a line
ends in a comment.
-/

namespace PageBuilder

namespace Code

open Layout

structure Hooks.Named (hooks : Hooks) : Prop where
  react : Identifier.isValid hooks.react = true
  useDataQuery : Identifier.isValid hooks.useDataQuery = true
  useFetchedState : Identifier.isValid hooks.useFetchedState = true

theorem Hooks.usual_named : Hooks.usual.Named := ⟨by decide, by decide, by decide⟩

/-- The codes that stand on lines of generated code, in order. -/
def inlineCodes : StateSource → List String
  | .computed expression _ => [expression]
  | source => source.params.map Prod.snd

theorem key_flat (name : String) :
    Flat (if Identifier.ofText name = name then name else Json.stringText name).toList := by
  split
  · rename_i same
    exact flat_identifier (same ▸ Identifier.is_valid_of_text name)
  · exact flat_string name

theorem field_chars (entry : String × String) : (objectField entry).toList =
    (if Identifier.ofText entry.1 = entry.1 then entry.1 else Json.stringText entry.1).toList ++
      ([':', ' '] ++ entry.2.toList) := by
  unfold objectField
  split <;> simp [ToString.toString]

theorem colon_flat : Flat [':', ' '] := by decide

theorem comma_flat : Flat [',', ' '] := by decide

def listed (pieces : List String) : List Char := (", ".intercalate pieces).toList

theorem listed_cons (piece : String) {rest : List String} (more : rest ≠ []) :
    listed (piece :: rest) = piece.toList ++ ',' :: ' ' :: listed rest := by
  obtain ⟨next, rest, rfl⟩ := List.exists_cons_of_ne_nil more
  rw [listed, String.intercalate_cons_cons, String.toList_append, String.toList_append,
    List.append_assoc]
  rfl

theorem listed_singleton (piece : String) : listed [piece] = piece.toList := by
  rw [listed, String.intercalate_singleton]

theorem list_chars (items : List String) :
    (listLiteral items).toList = '[' :: (listed items ++ [']']) := by
  simp [listLiteral, listed]

theorem object_chars (entries : List (String × String)) (nonempty : entries ≠ []) :
    (objectLiteral entries).toList =
      '\x7b' :: (' ' :: (listed (entries.map objectField) ++ [' ']) ++ ['\x7d']) := by
  rw [objectLiteral, if_neg (by simpa using nonempty)]
  simp [listed]

theorem flat_listed {pieces : List String} (each : ∀ piece ∈ pieces, Flat piece.toList) :
    Flat (listed pieces) := by
  induction pieces with
  | nil => exact flat_nil
  | cons piece rest ih =>
      have first := each piece List.mem_cons_self
      have later := ih fun other member => each other (List.mem_cons_of_mem _ member)
      cases rest with
      | nil =>
          rw [listed_singleton]
          exact first
      | cons next rest =>
          rw [listed_cons piece (List.cons_ne_nil _ _)]
          exact first.append (comma_flat.append later)

theorem flat_list {names : List String}
    (valid : ∀ name ∈ names, Identifier.isValid name = true) :
    Flat (listLiteral names).toList := by
  rw [list_chars]
  exact (flat_listed fun name member => flat_identifier (valid name member)).enclosed (by decide)
    (by decide)

theorem sound_field {entry : String × String} (sound : Sound entry.2.toList) :
    Sound (objectField entry).toList := by
  rw [field_chars]
  exact (key_flat entry.1).sound_behind (colon_flat.sound_behind sound)

theorem sound_fields {entries : List (String × String)}
    (each : ∀ entry ∈ entries, Sound entry.2.toList) :
    Sound (listed (entries.map objectField)) := by
  induction entries with
  | nil => exact flat_nil.sound
  | cons entry rest ih =>
      have first := sound_field (each entry List.mem_cons_self)
      have later := ih fun other member => each other (List.mem_cons_of_mem _ member)
      cases rest with
      | nil =>
          rw [List.map_singleton, listed_singleton]
          exact first
      | cons next rest =>
          rw [List.map_cons, listed_cons _ (by simp)]
          exact first.append (by decide) (comma_flat.sound_behind later)

theorem leads_object {entries : List (String × String)}
    (each : ∀ entry ∈ entries, Sound entry.2.toList) : Leads 0 (objectLiteral entries).toList := by
  have blank : Flat [' '] := by decide
  by_cases empty : entries = []
  · rw [empty]
    exact Flat.leads (by decide)
  · rw [object_chars entries empty]
    refine Sound.enclosed (by decide) (by decide) ?_
    exact blank.leads.sound_behind ((sound_fields each).leads (by decide) blank.leads).sound

theorem flat_braces {pieces : List String} (each : ∀ piece ∈ pieces, Flat piece.toList) :
    Flat ("\x7b " ++ ", ".intercalate pieces ++ " \x7d").toList := by
  have blank : Flat [' '] := by decide
  have inside := (blank.append ((flat_listed each).append blank)).enclosed
    (by decide : isOpening '\x7b' = true) (by decide : isClosing '\x7d' = true)
  simpa [listed] using inside

theorem flat_object {entries : List (String × String)}
    (each : ∀ entry ∈ entries, Flat entry.2.toList) : Flat (objectLiteral entries).toList := by
  unfold objectLiteral
  split
  · decide
  · refine flat_braces fun piece member => ?_
    obtain ⟨entry, listed, rfl⟩ := List.mem_map.1 member
    rw [field_chars]
    exact (key_flat entry.1).append (colon_flat.append (each entry listed))

/-- The text holds the code in code, behind this many open levels, and nothing after it starts a new
line. -/
def Reaches (levels : Nat) (text code : List Char) : Prop :=
  ∃ front back, text = front ++ (code ++ back) ∧ Leads levels front ∧ '\n' ∉ back

theorem Reaches.refl (code : List Char) : Reaches 0 code code :=
  ⟨[], [], by simp, leads_nil, List.not_mem_nil⟩

theorem Reaches.behind {levels more : Nat} {text code front : List Char}
    (reaches : Reaches levels text code) (leads : Leads more front) :
    Reaches (more + levels) (front ++ text) code := by
  obtain ⟨early, back, rfl, first, unbroken⟩ := reaches
  exact ⟨front ++ early, back, by simp, leads.append first, unbroken⟩

theorem Reaches.flat_behind {levels : Nat} {text code front : List Char}
    (reaches : Reaches levels text code) (flat : Flat front) :
    Reaches levels (front ++ text) code := by
  have behind := reaches.behind flat.leads
  rwa [Nat.zero_add] at behind

theorem Reaches.before {levels : Nat} {text code back : List Char}
    (reaches : Reaches levels text code) (unbroken : '\n' ∉ back) :
    Reaches levels (text ++ back) code := by
  obtain ⟨front, early, rfl, first, clean⟩ := reaches
  refine ⟨front, early ++ back, by simp, first, ?_⟩
  rw [List.mem_append, not_or]
  exact ⟨clean, unbroken⟩

theorem Reaches.not_balanced {levels : Nat} {text code : String}
    (reaches : Reaches (levels + 1) text.toList code.toList) (balanced : Balanced code)
    (comment : EndsInComment code) : ¬Balanced text := by
  obtain ⟨front, back, whole, leads, unbroken⟩ := reaches
  exact not_balanced_of_comment whole leads balanced comment unbroken

theorem unbroken_fields {entries : List (String × String)}
    (unbroken : ∀ entry ∈ entries, '\n' ∉ entry.2.toList) :
    '\n' ∉ listed (entries.map objectField) := by
  have field {entry : String × String} (unbroken : '\n' ∉ entry.2.toList) :
      '\n' ∉ (objectField entry).toList := by
    rw [field_chars, List.mem_append, List.mem_append, not_or, not_or]
    exact ⟨(key_flat entry.1).unbroken, colon_flat.unbroken, unbroken⟩
  induction entries with
  | nil => exact List.not_mem_nil
  | cons entry rest ih =>
      have first := field (unbroken entry List.mem_cons_self)
      have later := ih fun other member => unbroken other (List.mem_cons_of_mem _ member)
      cases rest with
      | nil =>
          rw [List.map_singleton, listed_singleton]
          exact first
      | cons next rest =>
          rw [List.map_cons, listed_cons _ (by simp)]
          simpa using ⟨first, later⟩

theorem reaches_field {before after : List (String × String)} (key code : String)
    (sound : ∀ entry ∈ before, Sound entry.2.toList)
    (unbroken : ∀ entry ∈ after, '\n' ∉ entry.2.toList) :
    Reaches 0 (listed ((before ++ (key, code) :: after).map objectField)) code.toList := by
  induction before with
  | nil =>
      have here : Reaches 0 (objectField (key, code)).toList code.toList := by
        rw [field_chars]
        exact ((Reaches.refl code.toList).flat_behind colon_flat).flat_behind (key_flat key)
      cases after with
      | nil =>
          rw [List.nil_append, List.map_singleton, listed_singleton]
          exact here
      | cons next after =>
          rw [List.nil_append, List.map_cons, listed_cons _ (by simp)]
          refine here.before ?_
          simpa using unbroken_fields unbroken
  | cons entry before ih =>
      have later := ih fun other member => sound other (List.mem_cons_of_mem _ member)
      have first := sound_field (sound entry List.mem_cons_self)
      rw [List.cons_append, List.map_cons, listed_cons _ (by simp)]
      have behind := later.behind (first.leads (by decide) comma_flat.leads)
      simpa using behind

theorem reaches_object {before after : List (String × String)} (key code : String)
    (sound : ∀ entry ∈ before, Sound entry.2.toList)
    (unbroken : ∀ entry ∈ after, '\n' ∉ entry.2.toList) :
    Reaches 1 (objectLiteral (before ++ (key, code) :: after)).toList code.toList := by
  have inside := reaches_field key code sound unbroken
  have opened : Leads 1 ['\x7b', ' '] := by
    have blank : Flat [' '] := by decide
    exact (leads_opening (by decide)).append blank.leads
  rw [object_chars _ (by simp)]
  have ends : '\n' ∉ [' ', '\x7d'] := by decide
  have whole := (inside.before ends).behind opened
  simpa using whole

def callee (hooks : Hooks) : StateSource → String
  | .pageSlot _ => hooks.react ++ ".useState"
  | .controlledPair _ => hooks.react ++ ".useState"
  | .computed _ _ => hooks.react ++ ".useMemo"
  | .derived _ _ _ => hooks.react ++ ".useMemo"
  | .query _ _ _ => hooks.useDataQuery
  | .fetched _ => hooks.useFetchedState

def arrow : List Char := ['(', ')', ' ', '=', '>', ' ']

/-- The code of a derived state with the lines that it has to itself. -/
def ownLines (code : String) : List Char := '(' :: ('\n' :: (code.toList ++ ['\n']) ++ [')'])

def arguments : StateSource → List Char
  | .pageSlot initial => initial.toList
  | .controlledPair initial => (initial.getD "").toList
  | .computed expression reads =>
      arrow ++ (expression.toList ++ ',' :: ' ' :: (listLiteral reads).toList)
  | .derived code params reads =>
      arrow ++ (ownLines code ++
        ('(' :: ((objectLiteral params).toList ++ [')']) ++
          ([',', ' '] ++ (listLiteral reads).toList)))
  | .query api node params =>
      (Json.stringText api).toList ++
        ([',', ' '] ++ ((Json.stringText node).toList ++
          ([',', ' '] ++ (objectLiteral params).toList)))
  | .fetched params => (objectLiteral params).toList

theorem source_chars (hooks : Hooks) (source : StateSource) :
    (sourceCode hooks source).toList =
      (callee hooks source).toList ++ '(' :: (arguments source ++ [')']) := by
  cases source with
  | controlledPair initial =>
      cases initial <;> simp [sourceCode, callee, arguments, ToString.toString]
  | pageSlot | computed | derived | query | fetched =>
      simp [sourceCode, callee, arguments, arrow, ownLines, ToString.toString]

theorem callee_flat {hooks : Hooks} (named : hooks.Named) (source : StateSource) :
    Flat (callee hooks source).toList := by
  have method {name : String} (neutral : Neutral name.toList) :
      Flat (hooks.react ++ name).toList := by
    rw [String.toList_append]
    exact (flat_identifier named.react).append (flat_of_neutral neutral)
  cases source with
  | pageSlot | controlledPair => exact method (by decide)
  | computed | derived => exact method (by decide)
  | query => exact flat_identifier named.useDataQuery
  | fetched => exact flat_identifier named.useFetchedState

/-- What a page puts around the inline codes of a source is flat, and the code of a derived state is
balanced. -/
inductive Framed : StateSource → Prop
  | pageSlot {initial : String} (flat : Flat initial.toList) : Framed (.pageSlot initial)
  | controlledPair {initial : Option String}
      (flat : ∀ text, initial = some text → Flat text.toList) : Framed (.controlledPair initial)
  | computed (expression : String) {reads : List String}
      (valid : ∀ name ∈ reads, Identifier.isValid name = true) :
      Framed (.computed expression reads)
  | derived {code : String} (params : List (String × String)) {reads : List String}
      (balanced : Balanced code) (valid : ∀ name ∈ reads, Identifier.isValid name = true) :
      Framed (.derived code params reads)
  | query (api : String) (node : NodeId) (params : List (String × String)) :
      Framed (.query api node params)
  | fetched (params : List (String × String)) : Framed (.fetched params)

theorem arrow_flat : Flat arrow := by decide

theorem leads_own_lines {code : String} (balanced : Balanced code) : Leads 0 (ownLines code) :=
  balanced.between_feeds.sound.enclosed (by decide) (by decide)

/-- No inline code ends in a comment: the arguments close what they open. -/
theorem sound_arguments {source : StateSource} (framed : Framed source)
    (sound : ∀ code ∈ inlineCodes source, Sound code.toList) : Sound (arguments source) := by
  have object {params : List (String × String)}
      (sound : ∀ code ∈ params.map Prod.snd, Sound code.toList) :
      Leads 0 (objectLiteral params).toList :=
    leads_object fun entry member => sound _ (List.mem_map.2 ⟨entry, member, rfl⟩)
  cases framed with
  | pageSlot flat => exact flat.sound
  | @controlledPair initial flat =>
      cases initial with
      | none => exact flat_nil.sound
      | some text => exact (flat text rfl).sound
  | computed expression valid =>
      have first : Sound expression.toList := sound expression List.mem_cons_self
      have rest := comma_flat.append (flat_list valid)
      exact arrow_flat.sound_behind (first.append (by decide) rest.sound)
  | derived params balanced valid =>
      have called : Leads 0 ('(' :: ((objectLiteral params).toList ++ [')'])) :=
        (object sound).sound.enclosed (by decide) (by decide)
      have rest := comma_flat.append (flat_list valid)
      exact arrow_flat.sound_behind ((leads_own_lines balanced).sound_behind
        (called.sound_behind rest.sound))
  | query api node params =>
      have inside := comma_flat.sound_behind (object sound).sound
      have second := comma_flat.sound_behind ((flat_string node).sound_behind inside)
      exact (flat_string api).sound_behind second
  | fetched params => exact (object sound).sound

theorem arguments_reach {source : StateSource} (framed : Framed source) {before after : List String}
    {code : String} (split : inlineCodes source = before ++ code :: after)
    (sound : ∀ earlier ∈ before, Sound earlier.toList)
    (unbroken : ∀ later ∈ after, '\n' ∉ later.toList) :
    ∃ levels, Reaches levels (arguments source) code.toList := by
  have object {params : List (String × String)}
      (split : params.map Prod.snd = before ++ code :: after) :
      Reaches 1 (objectLiteral params).toList code.toList := by
    obtain ⟨front, rest, rfl, rfl, others⟩ := List.map_eq_append_iff.1 split
    obtain ⟨⟨key, held⟩, back, rfl, rfl, rfl⟩ := List.map_eq_cons_iff.1 others
    refine reaches_object key held (fun entry member => ?_) fun entry member => ?_
    · exact sound _ (List.mem_map.2 ⟨entry, member, rfl⟩)
    · exact unbroken _ (List.mem_map.2 ⟨entry, member, rfl⟩)
  have noCodes {text : List Char} (split : [] = before ++ code :: after) :
      ∃ levels, Reaches levels text code.toList := by simp at split
  cases framed with
  | pageSlot | controlledPair => exact noCodes split
  | @computed expression reads valid =>
      have rest := (comma_flat.append (flat_list valid)).unbroken
      cases before with
      | nil =>
          obtain ⟨rfl, _⟩ := List.cons.inj split
          exact ⟨0, ((Reaches.refl expression.toList).before rest).flat_behind arrow_flat⟩
      | cons earlier before => simp [inlineCodes] at split
  | @derived own params reads balanced valid =>
      have rest := (comma_flat.append (flat_list valid)).unbroken
      have opened := (object split).behind (leads_opening (by decide : isOpening '(' = true))
      have called : Reaches 2 ('(' :: ((objectLiteral params).toList ++ [')'])) code.toList :=
        opened.before (by decide : '\n' ∉ [')'])
      have inside := (called.before rest).behind (leads_own_lines balanced)
      exact ⟨0 + 2, inside.flat_behind arrow_flat⟩
  | query api node params =>
      have inside := ((object split).flat_behind comma_flat).flat_behind (flat_string node)
      exact ⟨1, (inside.flat_behind comma_flat).flat_behind (flat_string api)⟩
  | fetched params => exact ⟨1, object split⟩

theorem target_flat {names : StateNames}
    (valid : ∀ name ∈ names.all, Identifier.isValid name = true) :
    Flat (targetCode names).toList := by
  have value := flat_identifier (valid names.value List.mem_cons_self)
  rw [targetCode]
  cases given : names.setter with
  | none => exact value
  | some setter =>
      have set : Flat setter.toList := by
        refine flat_identifier (valid setter (List.mem_cons_of_mem _ ?_))
        rw [given]
        exact List.mem_singleton_self setter
      have chars : s!"[{names.value}, {setter}]".toList =
          '[' :: ((names.value.toList ++ ([',', ' '] ++ setter.toList)) ++ [']']) := by
        simp [ToString.toString]
      dsimp only
      rw [chars]
      exact (value.append (comma_flat.append set)).enclosed (by decide) (by decide)

theorem declaration_chars (hooks : Hooks) (names : StateNames) (source : StateSource) :
    (declaration hooks names source).toList = "const ".toList ++ ((targetCode names).toList ++
      ([' ', '=', ' '] ++ ((callee hooks source).toList ++
        (('(' :: (arguments source ++ [')'])) ++ [';'])))) := by
  have written : (declaration hooks names source).toList = "const ".toList ++
      ((targetCode names).toList ++ ([' ', '=', ' '] ++ ((sourceCode hooks source).toList ++
        [';']))) := by
    simp [declaration, ToString.toString]
  rw [written, source_chars, List.append_assoc]

theorem flat_arguments {source : StateSource} (framed : Framed source)
    (underived : ∀ code params reads, source ≠ .derived code params reads)
    (flat : ∀ code ∈ inlineCodes source, Flat code.toList) : Flat (arguments source) := by
  have object {params : List (String × String)}
      (flat : ∀ code ∈ params.map Prod.snd, Flat code.toList) :
      Flat (objectLiteral params).toList :=
    flat_object fun entry member => flat _ (List.mem_map.2 ⟨entry, member, rfl⟩)
  cases framed with
  | pageSlot initial => exact initial
  | @controlledPair initial given =>
      cases initial with
      | none => exact flat_nil
      | some text => exact given text rfl
  | computed expression valid =>
      have first := flat expression List.mem_cons_self
      exact arrow_flat.append (first.append (comma_flat.append (flat_list valid)))
  | derived params balanced valid => exact absurd rfl (underived _ _ _)
  | query api node params =>
      have second := (flat_string node).append (comma_flat.append (object flat))
      exact (flat_string api).append (comma_flat.append second)
  | fetched params => exact object flat

/-- A declaration of a state that is not derived has one line, if the code in it has. -/
theorem flat_declaration {hooks : Hooks} (named : hooks.Named) {names : StateNames}
    (valid : ∀ name ∈ names.all, Identifier.isValid name = true) {source : StateSource}
    (framed : Framed source) (underived : ∀ code params reads, source ≠ .derived code params reads)
    (flat : ∀ code ∈ inlineCodes source, Flat code.toList) :
    Flat (declaration hooks names source).toList := by
  have const : Flat "const ".toList := flat_of_neutral (by decide)
  have equals : Flat [' ', '=', ' '] := by decide
  have call : Flat ('(' :: (arguments source ++ [')'])) :=
    (flat_arguments framed underived flat).enclosed (by decide) (by decide)
  have ended := call.append (by decide : Flat [';'])
  rw [declaration_chars]
  exact const.append ((target_flat valid).append (equals.append ((callee_flat named source).append
    ended)))

/-- A declaration is balanced if no inline code ends in a comment. If one does, and those before it
do not and no line feed comes after it, the declaration stays open. -/
theorem declaration_balanced {hooks : Hooks} (named : hooks.Named) {names : StateNames}
    (valid : ∀ name ∈ names.all, Identifier.isValid name = true) {source : StateSource}
    (framed : Framed source) (balanced : ∀ code ∈ inlineCodes source, Balanced code) :
    ((∀ code ∈ inlineCodes source, ¬EndsInComment code) →
        Balanced (declaration hooks names source)) ∧
      ∀ before code after, inlineCodes source = before ++ code :: after →
        (∀ earlier ∈ before, ¬EndsInComment earlier) → EndsInComment code →
        (∀ later ∈ after, '\n' ∉ later.toList) → ¬Balanced (declaration hooks names source) := by
  have const : Flat "const ".toList := flat_of_neutral (by decide)
  have equals : Flat [' ', '=', ' '] := by decide
  have target := target_flat valid
  have called := callee_flat named source
  constructor
  · intro plain
    have sound := sound_arguments framed fun code member =>
      sound_iff.2 ⟨balanced code member, plain code member⟩
    have call : Leads 0 ('(' :: (arguments source ++ [')'])) :=
      sound.enclosed (by decide) (by decide)
    have ends : Leads 0 [';'] := Flat.leads (by decide)
    have whole := call.append ends
    refine (sound_iff.1 ?_).1
    rw [declaration_chars]
    exact const.sound_behind (target.sound_behind (equals.sound_behind
      (called.sound_behind whole.sound)))
  · -- The comment takes the rest of its line, and with it the parenthesis that the call opens.
    intro before code after split plain comment unbroken
    have member {earlier : String} (inside : earlier ∈ before) : earlier ∈ inlineCodes source := by
      rw [split]
      exact List.mem_append_left _ inside
    obtain ⟨levels, reaches⟩ := arguments_reach framed split
      (fun earlier inside => sound_iff.2 ⟨balanced earlier (member inside), plain earlier inside⟩)
      unbroken
    have opened := reaches.behind (leads_opening (by decide : isOpening '(' = true))
    have closed : Reaches (1 + levels) ('(' :: (arguments source ++ [')'])) code.toList :=
      opened.before (by decide : '\n' ∉ [')'])
    have ended := closed.before (by decide : '\n' ∉ [';'])
    have whole := (((ended.flat_behind called).flat_behind equals).flat_behind target).flat_behind
      const
    rw [← declaration_chars, Nat.add_comm] at whole
    refine whole.not_balanced (balanced code ?_) comment
    rw [split]
    exact List.mem_append_right _ List.mem_cons_self

end Code

end PageBuilder
