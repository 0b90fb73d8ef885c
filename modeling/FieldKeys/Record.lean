import FieldKeys.Mapping
import FieldKeys.Source.Item
import FieldKeys.StyleOption

/-! Records: structures with their naming style and the directives of their fields. -/

namespace FieldKeys

structure Record where
  name : Text
  visibility : List Token
  generics : Generics
  style : Style
  fields : List Declaration

def Field.declaration (f : Field) : Except Fault Declaration :=
  (Directive.ofAttributes f.attributes).map fun directives => ⟨f.name, directives⟩

def Field.declarations : List Field → Except Fault (List Declaration)
  | [] => .ok []
  | f :: fs =>
    match f.declaration with
    | .error fault => .error fault
    | .ok d => (Field.declarations fs).map (d :: ·)

/-- The named fields of a structure. The fields of a tuple have no names and no directives. -/
def Body.fields? : Body → Option (List Field)
  | .named fields => some fields
  | .tuple | .unit => some []
  | .noStructure => none

/-- The record that an item declares. That it is a structure is asked first, then its style,
then the attributes of all its fields. -/
def Item.record (i : Item) : Outcome Record :=
  match i.body.fields? with
  | none => ⟨[], .error (.notStructure i.span)⟩
  | some fields =>
    match Style.ofAttributes i.attributes with
    | .error f => ⟨[], .error f⟩
    | .ok s =>
      ⟨[.style s], (Field.declarations fields).map fun declarations =>
        ⟨i.name, i.visibility, i.generics, s, declarations⟩⟩

structure Mapping where
  record : Record
  entries : Option (List Entry)

def Item.mapping (i : Item) : Outcome Mapping :=
  match i.record with
  | ⟨notes, .error f⟩ => ⟨notes, .error f⟩
  | ⟨notes, .ok r⟩ =>
    let entries := r.style.mapping r.fields
    ⟨notes ++ entries.notes, entries.result.map fun es => ⟨r, es⟩⟩

end FieldKeys
