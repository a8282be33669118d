import SearchScript.Pattern.CharSet

/-!
# Sets of characters by name

The names of properties of characters, of general categories and of scripts. Case, blanks, dashes
and underscores in a name do not count, and neither does `is` at its front.
-/

namespace SearchScript.CharSet

open Unicode

/-- The form of a name in which it is looked up. -/
def lookupForm (name : List Char) : String :=
  let (hasIs, body) := match name with
    | a :: b :: rest =>
      if (a = 'i' ∨ a = 'I') ∧ (b = 's' ∨ b = 'S') then (true, rest) else (false, name)
    | _ => (false, name)
  let kept := (body.filter fun c => c ≠ ' ' ∧ c ≠ '_' ∧ c ≠ '-' ∧ c.toNat < 0x80).map Char.toLower
  -- the abbreviation `isc` is not the category `c`
  if hasIs ∧ kept = ['c'] then "isc" else String.ofList kept

/-- The properties that are made of categories and a few more code points. -/
def derivedProperties : List (List String × CharSet) :=
  let idStart :=
    diff
      (union (categories (.letterNumber :: letterCategories)) (ranges Property.otherIdStart))
      (union (ranges Property.patternSyntax) (ranges Property.patternWhiteSpace))
  let idContinue :=
    union idStart
      (union
        (categories [.nonspacingMark, .spacingMark, .decimalNumber, .connectorPunctuation])
        (ranges Property.otherIdContinue))
  let graphemeExtend :=
    union (categories [.nonspacingMark, .enclosingMark]) (ranges Property.otherGraphemeExtend)
  [(["alpha", "alphabetic"], alphabetic),
    (["lower", "lowercase"], lowercase),
    (["upper", "uppercase"], uppercase),
    (["cased"], union (categories [.titlecaseLetter]) (union lowercase uppercase)),
    (["ci", "caseignorable"],
      union
        (categories
          [.nonspacingMark, .enclosingMark, .format, .modifierLetter, .modifierSymbol])
        (ranges Property.otherCaseIgnorable)),
    (["math"], union (categories [.mathSymbol]) (ranges Property.otherMath)),
    (["grext", "graphemeextend"], graphemeExtend),
    (["grbase", "graphemebase"],
      compl
        (union graphemeExtend
          (categories
            [.control, .format, .surrogate, .privateUse, .unassigned, .lineSeparator,
              .paragraphSeparator]))),
    (["idstart", "ids"], idStart),
    (["idc", "idcontinue"], idContinue),
    (["xids", "xidstart"], diff idStart (ranges Property.unstableIdStart)),
    (["xidc", "xidcontinue"], diff idContinue (ranges Property.unstableIdContinue))]

/-- The properties that have tables. -/
def tabledProperties : List (List String × Ranges) :=
  [(["ahex", "asciihexdigit"], Property.asciiHexDigit),
    (["bidic", "bidicontrol"], Property.bidiControl),
    (["bidim", "bidimirrored"], Property.bidiMirrored),
    (["dash"], Property.dash),
    (["dep", "deprecated"], Property.deprecatedChars),
    (["di", "defaultignorablecodepoint"], Property.defaultIgnorable),
    (["dia", "diacritic"], Property.diacritic),
    (["ebase", "emojimodifierbase"], Property.emojiModifierBase),
    (["ecomp", "emojicomponent"], Property.emojiComponent),
    (["emod", "emojimodifier"], Property.emojiModifier),
    (["emoji"], Property.emoji),
    (["epres", "emojipresentation"], Property.emojiPresentation),
    (["ext", "extender"], Property.extender),
    (["extpict", "extendedpictographic"], Property.extendedPictographic),
    (["hex", "hexdigit"], Property.hexDigit),
    (["hyphen"], Property.hyphen),
    (["ideo", "ideographic"], Property.ideographic),
    (["idsb", "idsbinaryoperator"], Property.binaryDescription),
    (["idst", "idstrinaryoperator"], Property.trinaryDescription),
    (["joinc", "joincontrol"], Property.joinControl),
    (["loe", "logicalorderexception"], Property.logicalOrderException),
    (["nchar", "noncharactercodepoint"], Property.noncharacter),
    (["oalpha", "otheralphabetic"], Property.otherAlphabetic),
    (["ogrext", "othergraphemeextend"], Property.otherGraphemeExtend),
    (["oidc", "otheridcontinue"], Property.otherIdContinue),
    (["oids", "otheridstart"], Property.otherIdStart),
    (["olower", "otherlowercase"], Property.otherLowercase),
    (["omath", "othermath"], Property.otherMath),
    (["oupper", "otheruppercase"], Property.otherUppercase),
    (["patsyn", "patternsyntax"], Property.patternSyntax),
    (["patws", "patternwhitespace"], Property.patternWhiteSpace),
    (["pcm", "prependedconcatenationmark"], Property.prependedMark),
    (["qmark", "quotationmark"], Property.quotationMark),
    (["radical"], Property.radical),
    (["ri", "regionalindicator"], Property.regionalIndicator),
    (["sd", "softdotted"], Property.softDotted),
    (["space", "whitespace", "wspace"], Property.whiteSpace),
    (["sterm", "sentenceterminal"], Property.sentenceTerminal),
    (["term", "terminalpunctuation"], Property.terminalPunctuation),
    (["uideo", "unifiedideograph"], Property.unifiedIdeograph),
    (["variationselector", "vs"], Property.variationSelector)]

/-- The set of a property. -/
def ofProperty? (form : String) : Option CharSet :=
  match derivedProperties.find? (·.1.contains form) with
  | some (_, set) => some set
  | none => (tabledProperties.find? (·.1.contains form)).map fun (_, table) => ranges table

/-- The set of a general category or of a class of categories. -/
def ofCategory? (form : String) : Option CharSet :=
  if form = "any" then some all
  else if form = "assigned" then some (compl (categories [.unassigned]))
  else if form = "ascii" then some ascii
  else (Category.ofName? form).map categories

/-- The set that a name stands for. Where the abbreviations of a property and of a category are the
same, the category counts. -/
def ofName? (name : List Char) : Option CharSet :=
  let form := lookupForm name
  let property := if ["cf", "sc", "lc"].contains form then none else ofProperty? form
  property <|> ofCategory? form <|> (Script.ofName? form).map script

/-- The set of the characters for which a property has a value. -/
def ofValue? (property value : List Char) : Option CharSet :=
  let form := lookupForm value
  match lookupForm property with
  | "gc" | "generalcategory" => ofCategory? form
  | "sc" | "script" => (Script.ofName? form).map script
  | "scx" | "scriptextensions" => (Script.ofName? form).map usedIn
  | _ => none

end SearchScript.CharSet
