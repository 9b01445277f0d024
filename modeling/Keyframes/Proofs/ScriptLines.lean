import Keyframes.Proofs.OneLine

/-!
# The lines of a script

A script is read by cutting it at its line boundaries. A rule's line is one line when none of
the texts its action carries into it as they are breaks a line (`Action.Unbroken`): its target
and tags, its payload's values as they show, its block id or its command; numbers and quoted
texts never break (`renderAction_unbroken`). Every rule's line starts with `execute` and holds
the guard of the rule's offset followed by ` run ` (`renderAction_guarded`).

When the timeline's name, its every-tick commands and its actions do not break a line
(`Document.Unbroken`), the lines of the script are its layout (`renderDocument_lines`): the
notice, a blank line, the every-tick commands, one line per rule in order, a blank line, the
two reset lines and the advance.
-/

namespace Keyframes
open Keyframes.Text Keyframes.Json

theorem forall₂_of_mapM_eq_ok {ε α β : Type} {f : α → Except ε β} :
    ∀ {l : List α} {l' : List β}, l.mapM f = .ok l' → List.Forall₂ (fun a b => f a = .ok b) l l'
  | [], l', done => by
    cases done
    exact List.Forall₂.nil
  | a :: rest, l', done => by
    rw [List.mapM_cons, bind_eq_ok] at done
    obtain ⟨b, head, done⟩ := done
    rw [bind_eq_ok] at done
    obtain ⟨bs, tail, done⟩ := done
    cases done
    exact List.Forall₂.cons head (forall₂_of_mapM_eq_ok tail)

theorem mem_of_getField? {κ : Type} [DecidableEq κ] {key : κ} {v : Value} :
    ∀ {fields : List (κ × Value)}, getField? fields key = some v → (key, v) ∈ fields
  | [], found => by cases found
  | (k, w) :: rest, found => by
    unfold getField? at found
    split at found
    · rename_i same
      cases found
      rw [show k = key from same]
      exact List.mem_cons_self
    · exact List.mem_cons_of_mem _ (mem_of_getField? found)

theorem payloadField_mem {payload : List (String × Value)} {key : String} {v : Value}
    (found : payloadField payload key = .ok v) : (key, v) ∈ payload := by
  unfold payloadField at found
  split at found
  · rename_i w located
    cases found
    exact mem_of_getField? located
  · cases found

theorem Geometry.unpack_mem {α β : Type} {reader : α → Except Fault β} {n : Nat}
    {values : List α} {out : List β} (unpacked : Geometry.unpack reader n values = .ok out) :
    ∀ b ∈ out, ∃ a, reader a = .ok b := by
  unfold Geometry.unpack at unpacked
  obtain ⟨got, mapped, unpacked⟩ := bind_eq_ok.1 unpacked
  split at unpacked
  · cases unpacked
  · split at unpacked
    · cases unpacked
    · cases unpacked
      intro b mem
      obtain ⟨a, -, found⟩ := exists_of_mapM_eq_ok mapped b mem
      exact ⟨a, found⟩

/-- The texts of a payload value that a command may write as they are: the value as it shows,
and for an object the key and the shown value of each field. -/
def Json.Value.written (v : Value) : List String :=
  v.show :: match v with
    | .obj fields => fields.flatMap fun f => [f.1, f.2.show]
    | _ => []

theorem Json.Value.written_obj {fields : List (String × Value)} {k : String} {v : Value}
    (mem : (k, v) ∈ fields) :
    k ∈ (Value.obj fields).written ∧ v.show ∈ (Value.obj fields).written := by
  constructor <;>
    exact List.mem_cons_of_mem _ (List.mem_flatMap.2 ⟨(k, v), mem, by simp⟩)

/-- The texts an action carries into its line as they are. -/
def Action.texts : Action → List String
  | .merge target _ _ _ _ => [target]
  | .summon _ tags anchor => tags ++ anchor.toList
  | .setState target _ payload => target :: payload.flatMap fun f => f.2.written
  | .setBlock _ _ _ blockId => [blockId]
  | .raw command => [command]

/-- An action none of whose texts breaks a line. -/
def Action.Unbroken (a : Action) : Prop :=
  ∀ t ∈ a.texts, breaksLine t = false

instance (a : Action) : Decidable a.Unbroken :=
  inferInstanceAs (Decidable (∀ t ∈ a.texts, breaksLine t = false))

/-- A document none of whose texts breaks a line of its script: its name, its every-tick
commands and the actions of its rules. -/
def Document.Unbroken (d : Document) : Prop :=
  breaksLine d.name = false ∧ (∀ c ∈ d.everyTick, breaksLine c = false) ∧
    ∀ r ∈ d.table.rules, r.action.Unbroken

instance (d : Document) : Decidable d.Unbroken :=
  inferInstanceAs (Decidable (_ ∧ _ ∧ _))

theorem Ticks.text_unbroken (t : Ticks) : breaksLine t.text = false := by
  cases t with
  | num n => exact natRepr_unbroken n
  | flag b => cases b <;> decide

theorem Channel.name_unbroken (c : Channel) : breaksLine c.name = false := by
  cases c <;> decide

theorem EntityKind.name_unbroken (k : EntityKind) : breaksLine k.name = false := by
  cases k <;> decide

theorem timerGuard_unbroken {name : String} (named : breaksLine name = false) (offset : Nat) :
    breaksLine (timerGuard name offset) = false := by
  simp +decide [timerGuard, holder, named, natRepr_unbroken]

theorem snbtEscape_unbroken :
    ∀ cs : List Char, cs.any isLineBoundary = false → (snbtEscape cs).any isLineBoundary = false
  | [], _ => rfl
  | c :: rest, solid => by
    simp only [List.any_cons, Bool.or_eq_false_iff] at solid
    have tail := snbtEscape_unbroken rest solid.2
    unfold snbtEscape
    split
    · simp +decide [tail]
    · split
      · simp +decide [tail]
      · simp [solid.1, tail]

theorem snbtQuote_unbroken {s : String} (solid : breaksLine s = false) :
    breaksLine (snbtQuote s) = false := by
  unfold snbtQuote
  rw [breaksLine_ofList]
  simp +decide [snbtEscape_unbroken s.toList solid]

theorem textComponent_unbroken {v : Value} {text : String} (shown : breaksLine v.show = false)
    (made : textComponent v = .ok text) : breaksLine text = false := by
  unfold textComponent at made
  split at made
  · -- a string: as it is when it starts like JSON, else as a JSON string
    split at made
    · split at made
      · cases made
        exact shown
      · cases made
        exact jsonQuote_unbroken _
    · cases made
      exact jsonQuote_unbroken _
  · split at made
    · split at made
      · cases made
        exact shown
      · cases made
        exact jsonQuoteCodes_unbroken _
    · cases made
      exact jsonQuoteCodes_unbroken _
  all_goals cases made

theorem singleList_unbroken {values : List Float} {text : String}
    (written : singleList values = .ok text) : breaksLine text = false := by
  unfold singleList at written
  obtain ⟨texts, made, written⟩ := bind_eq_ok.1 written
  cases written
  refine breaksLine_intercalate (by decide) fun t mem => ?_
  obtain ⟨u, kept, rfl⟩ := List.mem_map.1 mem
  obtain ⟨x, -, single⟩ := exists_of_mapM_eq_ok made u kept
  simp +decide [Decimal.singleText_unbroken single]

theorem stateCommand_unbroken {kind : StateKind} {payload : List (String × Value)}
    {command : String} (written : ∀ f ∈ payload, ∀ t ∈ f.2.written, breaksLine t = false)
    (made : stateCommand kind payload = .ok command) : breaksLine command = false := by
  have shown : ∀ {key v}, payloadField payload key = .ok v → breaksLine v.show = false :=
    fun found => written _ (payloadField_mem found) _ List.mem_cons_self
  cases kind with
  | block =>
    obtain ⟨id, found, made⟩ := bind_eq_ok.1 made
    dsimp only at made
    have named : breaksLine ("Name:\"" ++ id.show ++ "\"") = false := by
      simp +decide [shown found]
    split at made
    · split at made
      · -- the properties are an object of the payload: its keys and values are written
        rename_i fields located
        cases made
        have kept : ("properties", Value.obj fields) ∈ payload := by
          cases property : getField? payload "properties" with
          | none =>
            rw [property] at located
            cases located
          | some w =>
            rw [property, Option.getD_some] at located
            subst located
            exact mem_of_getField? property
        have props : breaksLine (",".intercalate
            (fields.map fun f => f.1 ++ ":\"" ++ f.2.show ++ "\"")) = false := by
          refine breaksLine_intercalate (by decide) fun t mem => ?_
          obtain ⟨⟨k, v⟩, inFields, rfl⟩ := List.mem_map.1 mem
          have each := Json.Value.written_obj inFields
          simp +decide [written _ kept k each.1, written _ kept v.show each.2]
        simp +decide [named, props]
      · obtain ⟨_, failed, _⟩ := bind_eq_ok.1 made
        cases failed
    · cases made
      simp +decide [named]
  | item =>
    obtain ⟨item, found, made⟩ := bind_eq_ok.1 made
    cases made
    simp +decide [shown found]
  | text =>
    obtain ⟨text, found, made⟩ := bind_eq_ok.1 made
    obtain ⟨component, quoted, made⟩ := bind_eq_ok.1 made
    cases made
    simp +decide [snbtQuote_unbroken (textComponent_unbroken (shown found) quoted)]
  | position =>
    obtain ⟨offset, -, made⟩ := bind_eq_ok.1 made
    obtain ⟨members, -, made⟩ := bind_eq_ok.1 made
    obtain ⟨texts, unpacked, made⟩ := bind_eq_ok.1 made
    -- every component is the text of a single-precision number
    have single : ∀ t ∈ texts, breaksLine t = false := by
      intro t mem
      obtain ⟨v, converted⟩ := Geometry.unpack_mem unpacked t mem
      obtain ⟨x, -, single⟩ := bind_eq_ok.1 converted
      exact Decimal.singleText_unbroken single
    split at made
    · cases made
      simp +decide [single]
    · cases made

theorem renderAction_unbroken {name : String} {offset : Nat} {a : Action} {line : String}
    (named : breaksLine name = false) (unbroken : a.Unbroken)
    (rendered : renderAction name offset a = .ok line) : breaksLine line = false := by
  have guard := timerGuard_unbroken named offset
  cases a with
  | merge target channel values duration start =>
    obtain ⟨vs, written, rendered⟩ := bind_eq_ok.1 rendered
    cases rendered
    simp +decide [guard, unbroken target (by simp [Action.texts]), Ticks.text_unbroken,
      Channel.name_unbroken, singleList_unbroken written]
  | summon kind tags anchor =>
    cases rendered
    have tagged : breaksLine (",".intercalate (tags.map fun t => "\"" ++ t ++ "\"")) = false :=
      breaksLine_intercalate (by decide) fun t mem => by
        obtain ⟨u, kept, rfl⟩ := List.mem_map.1 mem
        simp +decide [unbroken u (by simp [Action.texts, kept])]
    cases anchor with
    | none => simp +decide [guard, tagged, EntityKind.name_unbroken]
    | some a =>
      have anchored := unbroken a (by simp [Action.texts])
      dsimp only
      split <;> simp +decide [guard, tagged, EntityKind.name_unbroken, anchored]
  | setState target kind payload =>
    obtain ⟨command, made, rendered⟩ := bind_eq_ok.1 rendered
    cases rendered
    have written : ∀ f ∈ payload, ∀ t ∈ f.2.written, breaksLine t = false :=
      fun f mem t inWritten =>
        unbroken t (List.mem_cons_of_mem _ (List.mem_flatMap.2 ⟨f, mem, inWritten⟩))
    simp +decide [guard, unbroken target List.mem_cons_self, stateCommand_unbroken written made]
  | setBlock x y z blockId =>
    cases rendered
    simp +decide [guard, intRepr_unbroken, unbroken blockId (by simp [Action.texts])]
  | raw command =>
    cases rendered
    simp +decide [guard, unbroken command (by simp [Action.texts])]

/-- A rule's line: it starts with `execute ` and holds the guard of `offset` between a blank and
` run `. -/
def Guarded (name : String) (offset : Nat) (line : String) : Prop :=
  (∃ rest, line = "execute " ++ rest) ∧
    ∃ pre post, line = pre ++ " " ++ timerGuard name offset ++ " run " ++ post

theorem Guarded.of_eq {name : String} {offset : Nat} {line line' : String}
    (guarded : Guarded name offset line') (same : line = line') : Guarded name offset line :=
  same ▸ guarded

theorem guarded_bare (name : String) (offset : Nat) (post : String) :
    Guarded name offset ("execute " ++ timerGuard name offset ++ " run " ++ post) :=
  ⟨⟨timerGuard name offset ++ " run " ++ post, by simp only [String.append_assoc]⟩,
    "execute", post, by simp⟩

theorem guarded_scoped (name : String) (offset : Nat) (scope post : String) :
    Guarded name offset
      ("execute " ++ scope ++ " " ++ timerGuard name offset ++ " run " ++ post) :=
  ⟨⟨scope ++ " " ++ timerGuard name offset ++ " run " ++ post, by
      simp only [String.append_assoc]⟩, "execute " ++ scope, post, rfl⟩

theorem renderAction_guarded {name : String} {offset : Nat} {a : Action} {line : String}
    (rendered : renderAction name offset a = .ok line) : Guarded name offset line := by
  cases a with
  | merge target channel values duration start =>
    obtain ⟨vs, -, rendered⟩ := bind_eq_ok.1 rendered
    cases rendered
    exact (guarded_scoped name offset ("as @e[tag=" ++ target ++ "]")
      ("data merge entity @s \x7bstart_interpolation:" ++ start.text ++
        ",interpolation_duration:" ++ duration.text ++ ",transformation:\x7b" ++ channel.name ++
        ":[" ++ vs ++ "]\x7d\x7d")).of_eq (by simp [← String.toList_inj])
  | summon kind tags anchor =>
    cases rendered
    obtain ⟨post, summoned⟩ : ∃ post : String, post = "summon minecraft:" ++ kind.name ++
        " ~ ~ ~ \x7bTags:[" ++ ",".intercalate (tags.map fun t => "\"" ++ t ++ "\"") ++ "]\x7d" :=
      ⟨_, rfl⟩
    -- the anchor, when there is one, scopes the guard
    cases anchor with
    | none => exact (guarded_bare name offset post).of_eq (by simp [← String.toList_inj, summoned])
    | some a =>
      dsimp only
      split
      · exact (guarded_bare name offset post).of_eq (by simp [← String.toList_inj, summoned])
      · exact (guarded_scoped name offset ("at @e[tag=" ++ a ++ ",limit=1]") post).of_eq
          (by simp [← String.toList_inj, summoned])
  | setState target kind payload =>
    obtain ⟨command, -, rendered⟩ := bind_eq_ok.1 rendered
    cases rendered
    exact (guarded_scoped name offset ("as @e[tag=" ++ target ++ "]") command).of_eq
      (by simp [← String.toList_inj])
  | setBlock x y z blockId =>
    cases rendered
    exact (guarded_bare name offset ("setblock " ++ toString x ++ " " ++ toString y ++ " " ++
      toString z ++ " " ++ blockId)).of_eq (by simp [← String.toList_inj])
  | raw command =>
    cases rendered
    exact guarded_bare name offset command

/-- When no text of a document breaks a line, cutting its script at the line boundaries gives
its layout back, with one line for each rule. -/
theorem renderDocument_lines {d : Document} {script : String} (unbroken : d.Unbroken)
    (rendered : renderDocument d = .ok script) :
    ∃ ruleLines, List.Forall₂ (fun r line => renderAction d.name r.offset r.action = .ok line)
        d.table.rules ruleLines ∧
      lines script.toList = (scriptLines d.name d.table d.everyTick ruleLines).map String.toList := by
  obtain ⟨named, commands, actions⟩ := unbroken
  obtain ⟨ruleLines, made, rendered⟩ := bind_eq_ok.1 rendered
  cases rendered
  refine ⟨ruleLines, forall₂_of_mapM_eq_ok made, lines_join _ ?_⟩
  have ruled : ∀ l ∈ ruleLines, breaksLine l = false := by
    intro l mem
    obtain ⟨r, kept, line⟩ := exists_of_mapM_eq_ok made l mem
    exact renderAction_unbroken named (actions r kept) line
  have reset : ∀ l ∈ renderReset d.name d.table.maxOffset, breaksLine l = false := by
    simp +decide [renderReset, holder, named, Ticks.text_unbroken]
  intro l mem
  simp only [scriptLines, List.mem_append] at mem
  rcases mem with (((((inNotice | blank) | tick) | rule) | blank) | resetting) | advance
  · simp only [notice, List.mem_cons, List.not_mem_nil, or_false] at inNotice
    rcases inNotice with rfl | rfl <;> decide
  · rw [List.mem_singleton.1 blank]
    rfl
  · exact commands l tick
  · exact ruled l rule
  · rw [List.mem_singleton.1 blank]
    rfl
  · exact reset l resetting
  · obtain rfl := List.mem_singleton.1 advance
    unfold renderIncrement holder
    rw [breaksLine_append, breaksLine_append, breaksLine_append, named]
    decide +kernel

end Keyframes
