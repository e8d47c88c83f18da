import TemplateCascade.Code.Arithmetic
import TemplateCascade.Text.Quoted

namespace TemplateCascade

/-!
# Listings of generated code

The text of code for people to read: text in quotes, variables with a dollar sign, concatenation as
points, the rest much as it is written in a template.
-/

open Text (quoted)

def FormatKind.name : FormatKind → String
  | .count => "count"
  | .number => "number"
  | .date => "date"
  | .time => "time"
  | .dateTime => "datetime"

def ComparisonOperator.symbol : ComparisonOperator → String
  | .equal => "=="
  | .unequal => "!="
  | .less => "<"
  | .atMost => "<="
  | .greater => ">"
  | .atLeast => ">="

/-- A constant in a listing. -/
def constantListing : Value → String
  | .string content => quoted content
  | .null => "null"
  | .bool truth => if truth then "true" else "false"
  | value => value.text

mutual

/-- The listing of code. -/
def Code.listing : Code → String
  | .text content => quoted content
  | .constant value => constantListing value
  | .reference path => "$" ++ String.intercalate "." path
  | .concat parts => listings " . " parts
  | .escape mode inner => mode.name ++ "(" ++ inner.listing ++ ")"
  | .conditional test body otherwise =>
      "(" ++ test.listing ++ " ? " ++ body.listing ++ " : " ++ otherwise.listing ++ ")"
  | .each source key value body =>
      let keyListing :=
        match key with
        | some key => "$" ++ key ++ " => "
        | none => ""
      "foreach(" ++ source.listing ++ " as " ++ keyListing ++ "$" ++ value ++ ") \x7b " ++
        body.listing ++ " \x7d"
  | .arithmetic calculation => "calc(" ++ calculation.listing ++ ")"
  | .format kind value option => kind.name ++ "(" ++ value.listing ++ optionListing option ++ ")"
  | .link kind data parameters =>
      "link(" ++ kind.listing ++ optionListing data ++ parameterListing parameters ++ ")"
  | .pageNavigation link data page perPage total parameters =>
      "pagenav(" ++ link.listing ++ ", " ++ data.listing ++ ", page=" ++ page.listing ++
        ", per_page=" ++ perPage.listing ++ ", total=" ++ total.listing ++
        parameterListing parameters ++ ")"
  | .helper name arguments => "helper(" ++ name.listing ++ argumentListing arguments ++ ")"
  | .inclusion name => "include(" ++ quoted name ++ ")"

/-- The listings of several codes with a separator between them. -/
def listings (separator : String) : List Code → String
  | [] => ""
  | [code] => code.listing
  | code :: rest => code.listing ++ separator ++ listings separator rest

/-- A further operand that may be absent. -/
def optionListing : Option Code → String
  | none => ""
  | some code => ", " ++ code.listing

/-- Further operands. -/
def argumentListing : List Code → String
  | [] => ""
  | code :: rest => ", " ++ code.listing ++ argumentListing rest

/-- Further operands with names. -/
def parameterListing : List (String × Code) → String
  | [] => ""
  | (name, code) :: rest => ", " ++ name ++ "=" ++ code.listing ++ parameterListing rest

/-- The listing of a condition. -/
def Test.listing : Test → String
  | .truthy code => code.listing
  | .not inner => "!" ++ inner.listing
  | .and left right => "(" ++ left.listing ++ " && " ++ right.listing ++ ")"
  | .or left right => "(" ++ left.listing ++ " || " ++ right.listing ++ ")"
  | .compare operator left right =>
      left.listing ++ " " ++ operator.symbol ++ " " ++ right.listing

/-- The listing of a calculation. -/
def Arithmetic.listing : Arithmetic → String
  | .number amount => Value.numberText amount
  | .value code => code.listing
  | .negate inner => "-" ++ inner.listing
  | .binary operator left right =>
      "(" ++ left.listing ++ " " ++ operator.symbol ++ " " ++ right.listing ++ ")"
  | .function function arguments => function.name ++ "(" ++ calculationListings arguments ++ ")"

/-- The listings of the arguments of a function. -/
def calculationListings : List Arithmetic → String
  | [] => ""
  | [calculation] => calculation.listing
  | calculation :: rest => calculation.listing ++ ", " ++ calculationListings rest

end

end TemplateCascade
