import TsIngress.Env

/-!
This module contains the accessors of json-c that the sources use. A JSON null is a null pointer to them.
-/

def jsonObjectObjectGetEx (obj : Json) (key : String) : Option Json :=
  match obj with
  | .object fields => (fields.find? (·.1 = str key)).map Prod.snd
  | _ => none

def jsonObjectGetString (env : Env) (obj : Json) : Option Str :=
  match obj with
  | .null => none
  | .boolean b => some (str (toString b))
  | .int n => some (str (toString n))
  | .double text => some text
  | .string s => some s
  | obj => some (env.jsonText obj)

def intMax : Int := 0x7FFFFFFF

def intMin : Int := -intMax - 1

def jsonStringMember (obj : Json) (key : String) : Option Str :=
  match jsonObjectObjectGetEx obj key with
  | some (.string s) => some s
  | _ => none

-- `json_object_get_int` saturates.
def jsonIntMember (obj : Json) (key : String) : Option Int :=
  match jsonObjectObjectGetEx obj key with
  | some (.int n) => some (max intMin (min intMax n))
  | _ => none

def jsonArrayMember (obj : Json) (key : String) : Option (List Json) :=
  match jsonObjectObjectGetEx obj key with
  | some (.array elems) => some elems
  | _ => none

def jsonObjectMember (obj : Json) (key : String) : Option Json :=
  match jsonObjectObjectGetEx obj key with
  | some (.object fields) => some (.object fields)
  | _ => none

-- `strdup(json_object_get_string(..))` of a member of any type.
def jsonTextMember (env : Env) (obj : Json) (key : String) : Result (Option Str) :=
  match jsonObjectObjectGetEx obj key with
  | none => return none
  | some tmp => do
    let s ← deref (jsonObjectGetString env tmp)
    return some s

-- `json_object_object_foreachC` reads through the pointer to the table of the object.
def jsonObjectFields (obj : Json) : Result (List (Str × Json)) :=
  match obj with
  | .object fields => .ok fields
  | _ => .error .nullPointer

def jsonObjectArrayElems (obj : Json) : Result (List Json) :=
  match obj with
  | .array elems => .ok elems
  | _ => .error .nullPointer

def hashOfTexts (env : Env) (fields : List (Str × Json)) : Result (Hash Str) :=
  fields.foldlM
    (fun hs field => do
      let s ← deref (jsonObjectGetString env field.2)
      return hashSet hs field.1 s)
    (hashNew 127)

def hashOfStrings (fields : List (Str × Json)) : Hash Str :=
  fields.foldl
    (fun hs field =>
      match field.2 with
      | .string s => hashSet hs field.1 s
      | _ => hs)
    (hashNew 127)
