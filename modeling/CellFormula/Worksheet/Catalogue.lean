import CellFormula.Text.Blank
import CellFormula.Text.Case
import CellFormula.Token.OperandClass

/-!
# The catalogue of worksheet functions

A call names a worksheet function by a 16-bit index. The catalogue says for each index what the
function is called, how many arguments it takes, how it wants each of them, and whether its value
changes by itself. It says nothing about what a function computes, and it is longer than the list
of functions that can be computed here.

## Main definitions

* `FunctionInfo` — an entry, with `FunctionInfo.accepts` and `FunctionInfo.parameterClass`
* `catalogue` — all entries, in the order of their indices
* `functionAt?`, `functionNamed?` — look-up by index and by name
-/

namespace CellFormula.Worksheet

/-- What is known of a worksheet function without knowing what it computes. -/
structure FunctionInfo where
  /-- The number that calls give. -/
  index : UInt16
  /-- The name, in capital letters. -/
  name : String
  /-- The least number of arguments. -/
  minArguments : Nat
  /-- The largest number of arguments. -/
  maxArguments : Nat
  /-- The class of the result. -/
  returnClass : OperandClass
  /-- The classes of the parameters. The last one also holds for all arguments after it. -/
  parameterClasses : List OperandClass
  /-- The value changes from one computation to the next. -/
  isVolatile : Bool
deriving DecidableEq, Repr, Inhabited

namespace FunctionInfo

/-- The number of arguments is always the same, so a call need not say it. -/
def hasFixedArity (f : FunctionInfo) : Bool := f.minArguments == f.maxArguments

/-- The function can be called with so many arguments. -/
def accepts (f : FunctionInfo) (count : Nat) : Bool :=
  f.minArguments ≤ count && count ≤ f.maxArguments

/-- How the argument at a position, counted from zero, is wanted. -/
def parameterClass (f : FunctionInfo) (position : Nat) : OperandClass :=
  match f.parameterClasses[position]? with
  | some cls => cls
  | none => f.parameterClasses.getLast?.getD .value

end FunctionInfo

/-- The most arguments that a call can carry. -/
def maxArguments : Nat := 30

/-- The index of the function that calls functions from outside. Its first argument is the name of
the function to be called. -/
def userIndex : UInt16 := 255

/-- The index of the function that sums. -/
def sumIndex : UInt16 := 4

/-- All functions, in the order of their indices. -/
def catalogue : List FunctionInfo :=
  let r := OperandClass.reference
  let v := OperandClass.value
  let a := OperandClass.array
  [⟨0, "COUNT", 0, maxArguments, v, [r], false⟩,
   ⟨1, "IF", 2, 3, r, [v, r], false⟩,
   ⟨2, "ISNA", 1, 1, v, [v], false⟩,
   ⟨3, "ISERROR", 1, 1, v, [v], false⟩,
   ⟨4, "SUM", 0, maxArguments, v, [r], false⟩,
   ⟨5, "AVERAGE", 1, maxArguments, v, [r], false⟩,
   ⟨6, "MIN", 1, maxArguments, v, [r], false⟩,
   ⟨7, "MAX", 1, maxArguments, v, [r], false⟩,
   ⟨8, "ROW", 0, 1, v, [r], false⟩,
   ⟨9, "COLUMN", 0, 1, v, [r], false⟩,
   ⟨10, "NA", 0, 0, v, [], false⟩,
   ⟨11, "NPV", 2, maxArguments, v, [v, r], false⟩,
   ⟨12, "STDEV", 1, maxArguments, v, [r], false⟩,
   ⟨13, "DOLLAR", 1, 2, v, [v], false⟩,
   ⟨14, "FIXED", 1, 3, v, [v], false⟩,
   ⟨15, "SIN", 1, 1, v, [v], false⟩,
   ⟨16, "COS", 1, 1, v, [v], false⟩,
   ⟨17, "TAN", 1, 1, v, [v], false⟩,
   ⟨18, "ATAN", 1, 1, v, [v], false⟩,
   ⟨19, "PI", 0, 0, v, [], false⟩,
   ⟨20, "SQRT", 1, 1, v, [v], false⟩,
   ⟨21, "EXP", 1, 1, v, [v], false⟩,
   ⟨22, "LN", 1, 1, v, [v], false⟩,
   ⟨23, "LOG10", 1, 1, v, [v], false⟩,
   ⟨24, "ABS", 1, 1, v, [v], false⟩,
   ⟨25, "INT", 1, 1, v, [v], false⟩,
   ⟨26, "SIGN", 1, 1, v, [v], false⟩,
   ⟨27, "ROUND", 2, 2, v, [v], false⟩,
   ⟨28, "LOOKUP", 2, 3, v, [v, r], false⟩,
   ⟨29, "INDEX", 2, 4, r, [r, v], false⟩,
   ⟨30, "REPT", 2, 2, v, [v], false⟩,
   ⟨31, "MID", 3, 3, v, [v], false⟩,
   ⟨32, "LEN", 1, 1, v, [v], false⟩,
   ⟨33, "VALUE", 1, 1, v, [v], false⟩,
   ⟨34, "TRUE", 0, 0, v, [], false⟩,
   ⟨35, "FALSE", 0, 0, v, [], false⟩,
   ⟨36, "AND", 1, maxArguments, v, [r], false⟩,
   ⟨37, "OR", 1, maxArguments, v, [r], false⟩,
   ⟨38, "NOT", 1, 1, v, [v], false⟩,
   ⟨39, "MOD", 2, 2, v, [v], false⟩,
   ⟨40, "DCOUNT", 3, 3, v, [r], false⟩,
   ⟨41, "DSUM", 3, 3, v, [r], false⟩,
   ⟨42, "DAVERAGE", 3, 3, v, [r], false⟩,
   ⟨43, "DMIN", 3, 3, v, [r], false⟩,
   ⟨44, "DMAX", 3, 3, v, [r], false⟩,
   ⟨45, "DSTDEV", 3, 3, v, [r], false⟩,
   ⟨46, "VAR", 1, maxArguments, v, [r], false⟩,
   ⟨47, "DVAR", 3, 3, v, [r], false⟩,
   ⟨48, "TEXT", 2, 2, v, [v], false⟩,
   ⟨49, "LINEST", 1, 4, a, [r, r, v, v], false⟩,
   ⟨50, "TREND", 1, 4, a, [r, r, r, v], false⟩,
   ⟨51, "LOGEST", 1, 4, a, [r, r, v, v], false⟩,
   ⟨52, "GROWTH", 1, 4, a, [r, r, r, v], false⟩,
   ⟨56, "PV", 3, 5, v, [v], false⟩,
   ⟨57, "FV", 3, 5, v, [v], false⟩,
   ⟨58, "NPER", 3, 5, v, [v], false⟩,
   ⟨59, "PMT", 3, 5, v, [v], false⟩,
   ⟨60, "RATE", 3, 6, v, [v], false⟩,
   ⟨61, "MIRR", 3, 3, v, [r, v], false⟩,
   ⟨62, "IRR", 1, 2, v, [r, v], false⟩,
   ⟨63, "RAND", 0, 0, v, [], true⟩,
   ⟨64, "MATCH", 2, 3, v, [v, r, r], false⟩,
   ⟨65, "DATE", 3, 3, v, [v], false⟩,
   ⟨66, "TIME", 3, 3, v, [v], false⟩,
   ⟨67, "DAY", 1, 1, v, [v], false⟩,
   ⟨68, "MONTH", 1, 1, v, [v], false⟩,
   ⟨69, "YEAR", 1, 1, v, [v], false⟩,
   ⟨70, "WEEKDAY", 1, 2, v, [v], false⟩,
   ⟨71, "HOUR", 1, 1, v, [v], false⟩,
   ⟨72, "MINUTE", 1, 1, v, [v], false⟩,
   ⟨73, "SECOND", 1, 1, v, [v], false⟩,
   ⟨74, "NOW", 0, 0, v, [], true⟩,
   ⟨75, "AREAS", 1, 1, v, [r], false⟩,
   ⟨76, "ROWS", 1, 1, v, [r], false⟩,
   ⟨77, "COLUMNS", 1, 1, v, [r], false⟩,
   ⟨78, "OFFSET", 3, 5, r, [r, v], true⟩,
   ⟨82, "SEARCH", 2, 3, v, [v], false⟩,
   ⟨83, "TRANSPOSE", 1, 1, a, [a], false⟩,
   ⟨86, "TYPE", 1, 1, v, [v], false⟩,
   ⟨97, "ATAN2", 2, 2, v, [v], false⟩,
   ⟨98, "ASIN", 1, 1, v, [v], false⟩,
   ⟨99, "ACOS", 1, 1, v, [v], false⟩,
   ⟨100, "CHOOSE", 2, maxArguments, r, [v, r], false⟩,
   ⟨101, "HLOOKUP", 3, 4, v, [v, r, r, v], false⟩,
   ⟨102, "VLOOKUP", 3, 4, v, [v, r, r, v], false⟩,
   ⟨105, "ISREF", 1, 1, v, [r], false⟩,
   ⟨109, "LOG", 1, 2, v, [v], false⟩,
   ⟨111, "CHAR", 1, 1, v, [v], false⟩,
   ⟨112, "LOWER", 1, 1, v, [v], false⟩,
   ⟨113, "UPPER", 1, 1, v, [v], false⟩,
   ⟨114, "PROPER", 1, 1, v, [v], false⟩,
   ⟨115, "LEFT", 1, 2, v, [v], false⟩,
   ⟨116, "RIGHT", 1, 2, v, [v], false⟩,
   ⟨117, "EXACT", 2, 2, v, [v], false⟩,
   ⟨118, "TRIM", 1, 1, v, [v], false⟩,
   ⟨119, "REPLACE", 4, 4, v, [v], false⟩,
   ⟨120, "SUBSTITUTE", 3, 4, v, [v], false⟩,
   ⟨121, "CODE", 1, 1, v, [v], false⟩,
   ⟨124, "FIND", 2, 3, v, [v], false⟩,
   ⟨125, "CELL", 1, 2, v, [v, r], true⟩,
   ⟨126, "ISERR", 1, 1, v, [v], false⟩,
   ⟨127, "ISTEXT", 1, 1, v, [v], false⟩,
   ⟨128, "ISNUMBER", 1, 1, v, [v], false⟩,
   ⟨129, "ISBLANK", 1, 1, v, [v], false⟩,
   ⟨130, "T", 1, 1, v, [r], false⟩,
   ⟨131, "N", 1, 1, v, [r], false⟩,
   ⟨140, "DATEVALUE", 1, 1, v, [v], false⟩,
   ⟨141, "TIMEVALUE", 1, 1, v, [v], false⟩,
   ⟨142, "SLN", 3, 3, v, [v], false⟩,
   ⟨143, "SYD", 4, 4, v, [v], false⟩,
   ⟨144, "DDB", 4, 5, v, [v], false⟩,
   ⟨148, "INDIRECT", 1, 2, r, [v], true⟩,
   ⟨162, "CLEAN", 1, 1, v, [v], false⟩,
   ⟨163, "MDETERM", 1, 1, v, [a], false⟩,
   ⟨164, "MINVERSE", 1, 1, a, [a], false⟩,
   ⟨165, "MMULT", 2, 2, a, [a], false⟩,
   ⟨167, "IPMT", 4, 6, v, [v], false⟩,
   ⟨168, "PPMT", 4, 6, v, [v], false⟩,
   ⟨169, "COUNTA", 0, maxArguments, v, [r], false⟩,
   ⟨183, "PRODUCT", 0, maxArguments, v, [r], false⟩,
   ⟨184, "FACT", 1, 1, v, [v], false⟩,
   ⟨189, "DPRODUCT", 3, 3, v, [r], false⟩,
   ⟨190, "ISNONTEXT", 1, 1, v, [v], false⟩,
   ⟨193, "STDEVP", 1, maxArguments, v, [r], false⟩,
   ⟨194, "VARP", 1, maxArguments, v, [r], false⟩,
   ⟨195, "DSTDEVP", 3, 3, v, [r], false⟩,
   ⟨196, "DVARP", 3, 3, v, [r], false⟩,
   ⟨197, "TRUNC", 1, 2, v, [v], false⟩,
   ⟨198, "ISLOGICAL", 1, 1, v, [v], false⟩,
   ⟨199, "DCOUNTA", 3, 3, v, [r], false⟩,
   ⟨212, "ROUNDUP", 2, 2, v, [v], false⟩,
   ⟨213, "ROUNDDOWN", 2, 2, v, [v], false⟩,
   ⟨216, "RANK", 2, 3, v, [v, r, v], false⟩,
   ⟨219, "ADDRESS", 2, 5, v, [v], false⟩,
   ⟨220, "DAYS360", 2, 3, v, [v], false⟩,
   ⟨221, "TODAY", 0, 0, v, [], true⟩,
   ⟨222, "VDB", 5, 7, v, [v], false⟩,
   ⟨227, "MEDIAN", 1, maxArguments, v, [r], false⟩,
   ⟨228, "SUMPRODUCT", 1, maxArguments, v, [a], false⟩,
   ⟨229, "SINH", 1, 1, v, [v], false⟩,
   ⟨230, "COSH", 1, 1, v, [v], false⟩,
   ⟨231, "TANH", 1, 1, v, [v], false⟩,
   ⟨232, "ASINH", 1, 1, v, [v], false⟩,
   ⟨233, "ACOSH", 1, 1, v, [v], false⟩,
   ⟨234, "ATANH", 1, 1, v, [v], false⟩,
   ⟨244, "INFO", 1, 1, v, [v], true⟩,
   ⟨247, "DB", 4, 5, v, [v], false⟩,
   ⟨252, "FREQUENCY", 2, 2, a, [r], false⟩,
   ⟨userIndex, "USER", 1, maxArguments, r, [r], false⟩,
   ⟨261, "ERROR.TYPE", 1, 1, v, [v], false⟩,
   ⟨269, "AVEDEV", 1, maxArguments, v, [r], false⟩,
   ⟨270, "BETADIST", 3, 5, v, [v], false⟩,
   ⟨271, "GAMMALN", 1, 1, v, [v], false⟩,
   ⟨272, "BETAINV", 3, 5, v, [v], false⟩,
   ⟨273, "BINOMDIST", 4, 4, v, [v], false⟩,
   ⟨274, "CHIDIST", 2, 2, v, [v], false⟩,
   ⟨275, "CHIINV", 2, 2, v, [v], false⟩,
   ⟨276, "COMBIN", 2, 2, v, [v], false⟩,
   ⟨277, "CONFIDENCE", 3, 3, v, [v], false⟩,
   ⟨278, "CRITBINOM", 3, 3, v, [v], false⟩,
   ⟨279, "EVEN", 1, 1, v, [v], false⟩,
   ⟨280, "EXPONDIST", 3, 3, v, [v], false⟩,
   ⟨281, "FDIST", 3, 3, v, [v], false⟩,
   ⟨282, "FINV", 3, 3, v, [v], false⟩,
   ⟨283, "FISHER", 1, 1, v, [v], false⟩,
   ⟨284, "FISHERINV", 1, 1, v, [v], false⟩,
   ⟨285, "FLOOR", 2, 2, v, [v], false⟩,
   ⟨286, "GAMMADIST", 4, 4, v, [v], false⟩,
   ⟨287, "GAMMAINV", 3, 3, v, [v], false⟩,
   ⟨288, "CEILING", 2, 2, v, [v], false⟩,
   ⟨289, "HYPGEOMDIST", 4, 4, v, [v], false⟩,
   ⟨290, "LOGNORMDIST", 3, 3, v, [v], false⟩,
   ⟨291, "LOGINV", 3, 3, v, [v], false⟩,
   ⟨292, "NEGBINOMDIST", 3, 3, v, [v], false⟩,
   ⟨293, "NORMDIST", 4, 4, v, [v], false⟩,
   ⟨294, "NORMSDIST", 1, 1, v, [v], false⟩,
   ⟨295, "NORMINV", 3, 3, v, [v], false⟩,
   ⟨296, "NORMSINV", 1, 1, v, [v], false⟩,
   ⟨297, "STANDARDIZE", 3, 3, v, [v], false⟩,
   ⟨298, "ODD", 1, 1, v, [v], false⟩,
   ⟨299, "PERMUT", 2, 2, v, [v], false⟩,
   ⟨300, "POISSON", 3, 3, v, [v], false⟩,
   ⟨301, "TDIST", 3, 3, v, [v], false⟩,
   ⟨302, "WEIBULL", 4, 4, v, [v], false⟩,
   ⟨303, "SUMXMY2", 2, 2, v, [a], false⟩,
   ⟨304, "SUMX2MY2", 2, 2, v, [a], false⟩,
   ⟨305, "SUMX2PY2", 2, 2, v, [a], false⟩,
   ⟨306, "CHITEST", 2, 2, v, [a], false⟩,
   ⟨307, "CORREL", 2, 2, v, [a], false⟩,
   ⟨308, "COVAR", 2, 2, v, [a], false⟩,
   ⟨309, "FORECAST", 3, 3, v, [v, a], false⟩,
   ⟨310, "FTEST", 2, 2, v, [a], false⟩,
   ⟨311, "INTERCEPT", 2, 2, v, [a], false⟩,
   ⟨312, "PEARSON", 2, 2, v, [a], false⟩,
   ⟨313, "RSQ", 2, 2, v, [a], false⟩,
   ⟨314, "STEYX", 2, 2, v, [a], false⟩,
   ⟨315, "SLOPE", 2, 2, v, [a], false⟩,
   ⟨316, "TTEST", 4, 4, v, [a, a, v], false⟩,
   ⟨317, "PROB", 3, 4, v, [a, a, v], false⟩,
   ⟨318, "DEVSQ", 1, maxArguments, v, [r], false⟩,
   ⟨319, "GEOMEAN", 1, maxArguments, v, [r], false⟩,
   ⟨320, "HARMEAN", 1, maxArguments, v, [r], false⟩,
   ⟨321, "SUMSQ", 0, maxArguments, v, [r], false⟩,
   ⟨322, "KURT", 1, maxArguments, v, [r], false⟩,
   ⟨323, "SKEW", 1, maxArguments, v, [r], false⟩,
   ⟨324, "ZTEST", 2, 3, v, [r, v], false⟩,
   ⟨325, "LARGE", 2, 2, v, [r, v], false⟩,
   ⟨326, "SMALL", 2, 2, v, [r, v], false⟩,
   ⟨327, "QUARTILE", 2, 2, v, [r, v], false⟩,
   ⟨328, "PERCENTILE", 2, 2, v, [r, v], false⟩,
   ⟨329, "PERCENTRANK", 2, 3, v, [r, v], false⟩,
   ⟨330, "MODE", 1, maxArguments, v, [a], false⟩,
   ⟨331, "TRIMMEAN", 2, 2, v, [r, v], false⟩,
   ⟨332, "TINV", 2, 2, v, [v], false⟩,
   ⟨336, "CONCATENATE", 0, maxArguments, v, [v], false⟩,
   ⟨337, "POWER", 2, 2, v, [v], false⟩,
   ⟨342, "RADIANS", 1, 1, v, [v], false⟩,
   ⟨343, "DEGREES", 1, 1, v, [v], false⟩,
   ⟨344, "SUBTOTAL", 2, maxArguments, v, [v, r], false⟩,
   ⟨345, "SUMIF", 2, 3, v, [r, v, r], false⟩,
   ⟨346, "COUNTIF", 2, 2, v, [r, v], false⟩,
   ⟨347, "COUNTBLANK", 1, 1, v, [r], false⟩,
   ⟨354, "ROMAN", 1, 2, v, [v], false⟩,
   ⟨359, "HYPERLINK", 1, 2, v, [v], false⟩,
   ⟨361, "AVERAGEA", 1, maxArguments, v, [r], false⟩,
   ⟨362, "MAXA", 1, maxArguments, v, [r], false⟩,
   ⟨363, "MINA", 1, maxArguments, v, [r], false⟩,
   ⟨364, "STDEVPA", 1, maxArguments, v, [r], false⟩,
   ⟨365, "VARPA", 1, maxArguments, v, [r], false⟩,
   ⟨366, "STDEVA", 1, maxArguments, v, [r], false⟩,
   ⟨367, "VARA", 1, maxArguments, v, [r], false⟩]

/-- The function with this index. -/
def functionAt? (index : UInt16) : Option FunctionInfo := catalogue.find? (·.index == index)

theorem mem_of_functionAt? {index : UInt16} {info : FunctionInfo}
    (h : functionAt? index = some info) : info ∈ catalogue :=
  List.mem_of_find?_eq_some h

theorem index_of_functionAt? {index : UInt16} {info : FunctionInfo}
    (h : functionAt? index = some info) : info.index = index := by
  have hfound := List.find?_some h
  exact beq_iff_eq.mp hfound

/-- The function with this name. White space around it and the case of ASCII letters do not
count. -/
def functionNamed? (name : String) : Option FunctionInfo :=
  let wanted := String.ofList (Text.asciiCapital (Text.trim name.toList))
  catalogue.find? (·.name == wanted)

end CellFormula.Worksheet
