/-!
# Names of character properties

The names that a pattern may use for classes of characters, in the spelling that
`normalize` gives them: lowercase letters and digits without blanks, bars and
hyphens, and without the word `is` in front.
-/

namespace Longform.Pattern.Property

/-- The names divided by blanks. -/
def names (text : String) : List String := (text.splitOn " ").filter (· != "")

/-- The general categories. -/
def categories : List String :=
  names "c other cc control cntrl cf format cn unassigned co privateuse cs surrogate"
    ++ names "l letter lc casedletter ll lowercaseletter lm modifierletter lo otherletter"
    ++ names "lt titlecaseletter lu uppercaseletter m mark combiningmark mc spacingmark"
    ++ names "me enclosingmark mn nonspacingmark n number nd decimalnumber digit nl letternumber"
    ++ names "no othernumber p punctuation punct pc connectorpunctuation pd dashpunctuation"
    ++ names "pe closepunctuation pf finalpunctuation pi initialpunctuation po otherpunctuation"
    ++ names "ps openpunctuation s symbol sc currencysymbol sk modifiersymbol sm mathsymbol"
    ++ names "so othersymbol z separator zl lineseparator zp paragraphseparator zs spaceseparator"
    ++ names "any assigned ascii"

/-- The scripts by their full names. -/
def scripts : List String :=
  names "adlam ahom anatolianhieroglyphs arabic armenian avestan balinese bamum bassavah batak"
    ++ names "bengali bhaiksuki bopomofo brahmi braille buginese buhid canadianaboriginal carian"
    ++ names "caucasianalbanian chakma cham cherokee chorasmian common coptic cuneiform cypriot"
    ++ names "cyprominoan cyrillic deseret devanagari divesakuru dogra duployan"
    ++ names "egyptianhieroglyphs elbasan elymaic ethiopic garay georgian glagolitic gothic"
    ++ names "grantha greek gujarati gunjalagondi gurmukhi gurungkhema han hangul hanifirohingya"
    ++ names "hanunoo hatran hebrew hiragana imperialaramaic inherited inscriptionalpahlavi"
    ++ names "inscriptionalparthian javanese kaithi kannada katakana kawi kayahli kharoshthi"
    ++ names "khitansmallscript khmer khojki khudawadi kiratrai lao latin lepcha limbu lineara"
    ++ names "linearb lisu lycian lydian mahajani makasar malayalam mandaic manichaean marchen"
    ++ names "masaramgondi medefaidrin meeteimayek mendekikakui meroiticcursive"
    ++ names "meroitichieroglyphs miao modi mongolian mro multani myanmar nabataean nagmundari"
    ++ names "nandinagari newtailue newa nko nushu nyiakengpuachuehmong ogham olchiki"
    ++ names "oldhungarian olditalic oldnortharabian oldpermic oldpersian oldsogdian"
    ++ names "oldsoutharabian oldturkic olduyghur olonal oriya osage osmanya pahawhhmong palmyrene"
    ++ names "paucinhau phagspa phoenician psalterpahlavi rejang runic samaritan saurashtra"
    ++ names "sharada shavian siddham signwriting sinhala sogdian sorasompeng soyombo sundanese"
    ++ names "sunuwar sylotinagri syriac tagalog tagbanwa taile taitham taiviet takri tamil"
    ++ names "tangsa tangut telugu thaana thai tibetan tifinagh tirhuta todhri toto tulutigalari"
    ++ names "ugaritic vai vithkuqi wancho warangciti yezidi yi zanabazarsquare"

/-- The scripts by their short names. -/
def shortScripts : List String :=
  names "adlm aghb ahom arab armi armn avst bali bamu bass batk beng bhks bopo brah brai bugi buhd"
    ++ names "cakm cans cari cham cher chrs copt qaac cpmn cprt cyrl deva diak dogr dsrt dupl egyp"
    ++ names "elba elym ethi gara geor glag gong gonm goth gran grek gujr gukh guru hang hani hano"
    ++ names "hatr hebr hira hluw hmng hmnp hung ital java kali kana kawi khar khmr khoj kits knda"
    ++ names "krai kthi lana laoo latn lepc limb lina linb lisu lyci lydi mahj maka mand mani marc"
    ++ names "medf mend merc mero mlym modi mong mroo mtei mult mymr nagm nand narb nbat newa nkoo"
    ++ names "nshu ogam olck onao orkh orya osge osma ougr palm pauc perm phag phli phlp phnx plrd"
    ++ names "prti rjng rohg runr samr sarb saur sgnw shaw shrd sidd sind sinh sogd sogo sora soyo"
    ++ names "sund sunu sylo syrc tagb takr tale talu taml tang tavt telu tfng tglg thaa tibt tirh"
    ++ names "tnsa todr toto tutg ugar vaii vith wara wcho xpeo xsux yezi yiii zanb zinh qaai zyyy"

/-- The properties that a character has or has not. -/
def binary : List String :=
  names "asciihexdigit ahex alphabetic alpha bidicontrol bidic bidimirrored bidim caseignorable"
    ++ names "ci cased changeswhencasefolded cwcf changeswhencasemapped cwcm"
    ++ names "changeswhenlowercased cwl changeswhentitlecased cwt changeswhenuppercased cwu dash"
    ++ names "defaultignorablecodepoint di deprecated dep diacritic dia emoji emojicomponent ecomp"
    ++ names "emojimodifier emod emojimodifierbase ebase emojipresentation epres"
    ++ names "extendedpictographic extpict extender ext graphemebase grbase graphemeextend grext"
    ++ names "graphemelink grlink hexdigit hex hyphen idcontinue idc idstart ids idsbinaryoperator"
    ++ names "idsb idstrinaryoperator idst ideographic ideo joincontrol joinc"
    ++ names "logicalorderexception loe lowercase lower math noncharactercodepoint nchar"
    ++ names "otheralphabetic oalpha otherdefaultignorablecodepoint odi othergraphemeextend"
    ++ names "ogrext otheridcontinue oidc otheridstart oids otherlowercase olower othermath omath"
    ++ names "otheruppercase oupper patternsyntax patsyn patternwhitespace patws"
    ++ names "prependedconcatenationmark pcm quotationmark qmark radical regionalindicator ri"
    ++ names "sentenceterminal sterm softdotted sd terminalpunctuation term unifiedideograph"
    ++ names "uideo uppercase upper variationselector vs whitespace wspace space xidcontinue xidc"
    ++ names "xidstart xids"

/-- The versions of the standard. -/
def ages : List String :=
  names "1.1 2.0 2.1 3.0 3.1 3.2 4.0 4.1 5.0 5.1 5.2 6.0 6.1 6.2 6.3 7.0 8.0 9.0 10.0 11.0 12.0"
    ++ names "12.1 13.0 14.0 15.0 15.1 16.0 v11 v20 v21 v30 v31 v32 v40 v41 v50 v51 v52 v60 v61"
    ++ names "v62 v63 v70 v80 v90 v100 v110 v120 v121 v130 v140 v150 v151 v160"

/-- The places at which a text may be cut between graphemes. -/
def graphemeBreaks : List String :=
  names "cn control cr eb ebase ebg ebasegaz em emodifier ex extend gaz glueafterzwj l lf lv lvt"
    ++ names "pp prepend ri regionalindicator sm spacingmark t v xx other zwj"

/-- The places at which a text may be cut between words. -/
def wordBreaks : List String :=
  names "cr dq doublequote eb ebase ebg ebasegaz em emodifier ex extendnumlet extend fo format gaz"
    ++ names "glueafterzwj hl hebrewletter ka katakana le aletter lf mb midnumlet ml midletter mn"
    ++ names "midnum nl newline nu numeric ri regionalindicator sq singlequote wsegspace xx other"
    ++ names "zwj"

/-- The places at which a text may be cut between sentences. -/
def sentenceBreaks : List String :=
  names "at aterm cl close cr ex extend fo format le oletter lf lo lower nu numeric sc scontinue"
    ++ names "se sep sp st sterm up upper xx other"

/-- A name in its normal spelling. -/
def normalize (name : List Char) : String :=
  let bare := (name.filter fun c => !(c == ' ' || c == '_' || c == '-') && c.toNat < 0x80).map
    Char.toLower
  match bare with
  | ['i', 's', 'c'] => "isc"
  | 'i' :: 's' :: c :: rest => String.ofList (c :: rest)
  | bare => String.ofList bare

/-- Whether a class of characters has the given name. -/
def isClass (name : List Char) : Bool :=
  let name := normalize name
  categories.contains name || binary.contains name || scripts.contains name
    || shortScripts.contains name

/-- Whether a property that has several values has the given one. -/
def hasValue (property value : List Char) : Bool :=
  let value := normalize value
  match normalize property with
  | "generalcategory" | "gc" | "category" => categories.contains value
  | "script" | "sc" | "scriptextensions" | "scx" =>
    scripts.contains value || shortScripts.contains value
  | "age" => ages.contains value
  | "graphemeclusterbreak" | "gcb" => graphemeBreaks.contains value
  | "wordbreak" | "wb" => wordBreaks.contains value
  | "sentencebreak" | "sb" => sentenceBreaks.contains value
  | _ => false

end Longform.Pattern.Property
