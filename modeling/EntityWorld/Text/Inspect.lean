import EntityWorld.Text.Quoted

/-!
# The inspected form of values

Error reports and logs show a value by its name and its parts: records with named fields, tagged
values, lists. An open record shows that it keeps some of its fields to itself.
-/
namespace EntityWorld.Text

def inspectList (items : List String) : String :=
  "[" ++ ", ".intercalate items ++ "]"

def inspectTagged (tag : String) (content : String) : String :=
  tag ++ "(" ++ content ++ ")"

private def fieldList (fields : List (String × String)) : List String :=
  fields.map fun field => field.1 ++ ": " ++ field.2

def inspectRecord (name : String) (fields : List (String × String)) : String :=
  name ++ " \x7b " ++ ", ".intercalate (fieldList fields) ++ " \x7d"

/-- A record with fields that are not shown. -/
def inspectOpenRecord (name : String) (fields : List (String × String)) : String :=
  name ++ " \x7b " ++ ", ".intercalate (fieldList fields ++ [".."]) ++ " \x7d"

end EntityWorld.Text
