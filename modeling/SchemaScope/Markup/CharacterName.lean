/-
**The names of characters.**

Markup gives names to some characters, so that they can be written by letters and digits.  These are
the names that the standard of web pages gives to single characters: those that markup itself needs
first, and the others by script and kind.  A character can have several names.

Main definitions:

* `Reference.names` — every name with its character.
-/

set_option autoImplicit false

namespace SchemaScope.Reference

/-- The names of the characters that markup itself needs. -/
def markupNames : List (String × Char) :=
  [("amp", '\u0026'), ("lt", '\u003c'), ("gt", '\u003e'), ("quot", '\u0022'),
   ("apos", '\u0027'), ("AMP", '\u0026'), ("LT", '\u003c'), ("GT", '\u003e'),
   ("QUOT", '\u0022')]

/-- The names of the letters and signs of Latin script. -/
def latinNames : List (String × Char) :=
  [("nbsp", '\u00a0'), ("iexcl", '\u00a1'), ("cent", '\u00a2'), ("pound", '\u00a3'),
   ("curren", '\u00a4'), ("yen", '\u00a5'), ("brvbar", '\u00a6'), ("sect", '\u00a7'),
   ("uml", '\u00a8'), ("copy", '\u00a9'), ("ordf", '\u00aa'), ("laquo", '\u00ab'),
   ("not", '\u00ac'), ("shy", '\u00ad'), ("reg", '\u00ae'), ("macr", '\u00af'),
   ("deg", '\u00b0'), ("plusmn", '\u00b1'), ("sup2", '\u00b2'), ("sup3", '\u00b3'),
   ("acute", '\u00b4'), ("micro", '\u00b5'), ("para", '\u00b6'), ("middot", '\u00b7'),
   ("cedil", '\u00b8'), ("sup1", '\u00b9'), ("ordm", '\u00ba'), ("raquo", '\u00bb'),
   ("frac14", '\u00bc'), ("frac12", '\u00bd'), ("frac34", '\u00be'), ("iquest", '\u00bf'),
   ("Agrave", '\u00c0'), ("Aacute", '\u00c1'), ("Acirc", '\u00c2'), ("Atilde", '\u00c3'),
   ("Auml", '\u00c4'), ("Aring", '\u00c5'), ("AElig", '\u00c6'), ("Ccedil", '\u00c7'),
   ("Egrave", '\u00c8'), ("Eacute", '\u00c9'), ("Ecirc", '\u00ca'), ("Euml", '\u00cb'),
   ("Igrave", '\u00cc'), ("Iacute", '\u00cd'), ("Icirc", '\u00ce'), ("Iuml", '\u00cf'),
   ("ETH", '\u00d0'), ("Ntilde", '\u00d1'), ("Ograve", '\u00d2'), ("Oacute", '\u00d3'),
   ("Ocirc", '\u00d4'), ("Otilde", '\u00d5'), ("Ouml", '\u00d6'), ("times", '\u00d7'),
   ("Oslash", '\u00d8'), ("Ugrave", '\u00d9'), ("Uacute", '\u00da'), ("Ucirc", '\u00db'),
   ("Uuml", '\u00dc'), ("Yacute", '\u00dd'), ("THORN", '\u00de'), ("szlig", '\u00df'),
   ("agrave", '\u00e0'), ("aacute", '\u00e1'), ("acirc", '\u00e2'), ("atilde", '\u00e3'),
   ("auml", '\u00e4'), ("aring", '\u00e5'), ("aelig", '\u00e6'), ("ccedil", '\u00e7'),
   ("egrave", '\u00e8'), ("eacute", '\u00e9'), ("ecirc", '\u00ea'), ("euml", '\u00eb'),
   ("igrave", '\u00ec'), ("iacute", '\u00ed'), ("icirc", '\u00ee'), ("iuml", '\u00ef'),
   ("eth", '\u00f0'), ("ntilde", '\u00f1'), ("ograve", '\u00f2'), ("oacute", '\u00f3'),
   ("ocirc", '\u00f4'), ("otilde", '\u00f5'), ("ouml", '\u00f6'), ("divide", '\u00f7'),
   ("oslash", '\u00f8'), ("ugrave", '\u00f9'), ("uacute", '\u00fa'), ("ucirc", '\u00fb'),
   ("uuml", '\u00fc'), ("yacute", '\u00fd'), ("thorn", '\u00fe'), ("yuml", '\u00ff'),
   ("COPY", '\u00a9'), ("REG", '\u00ae')]

/-- The names of the letters of Greek script. -/
def greekNames : List (String × Char) :=
  [("Alpha", '\u0391'), ("Beta", '\u0392'), ("Gamma", '\u0393'), ("Delta", '\u0394'),
   ("Epsilon", '\u0395'), ("Zeta", '\u0396'), ("Eta", '\u0397'), ("Theta", '\u0398'),
   ("Iota", '\u0399'), ("Kappa", '\u039a'), ("Lambda", '\u039b'), ("Mu", '\u039c'),
   ("Nu", '\u039d'), ("Xi", '\u039e'), ("Omicron", '\u039f'), ("Pi", '\u03a0'),
   ("Rho", '\u03a1'), ("Sigma", '\u03a3'), ("Tau", '\u03a4'), ("Upsilon", '\u03a5'),
   ("Phi", '\u03a6'), ("Chi", '\u03a7'), ("Psi", '\u03a8'), ("Omega", '\u03a9'),
   ("alpha", '\u03b1'), ("beta", '\u03b2'), ("gamma", '\u03b3'), ("delta", '\u03b4'),
   ("epsilon", '\u03b5'), ("zeta", '\u03b6'), ("eta", '\u03b7'), ("theta", '\u03b8'),
   ("iota", '\u03b9'), ("kappa", '\u03ba'), ("lambda", '\u03bb'), ("mu", '\u03bc'),
   ("nu", '\u03bd'), ("xi", '\u03be'), ("omicron", '\u03bf'), ("pi", '\u03c0'),
   ("rho", '\u03c1'), ("sigmaf", '\u03c2'), ("sigma", '\u03c3'), ("tau", '\u03c4'),
   ("upsilon", '\u03c5'), ("phi", '\u03c6'), ("chi", '\u03c7'), ("psi", '\u03c8'),
   ("omega", '\u03c9'), ("thetasym", '\u03d1'), ("upsih", '\u03d2'), ("piv", '\u03d6')]

/-- The names of the other letters, marks and mathematical signs. -/
def signNames : List (String × Char) :=
  [("OElig", '\u0152'), ("oelig", '\u0153'), ("Scaron", '\u0160'), ("scaron", '\u0161'),
   ("Yuml", '\u0178'), ("fnof", '\u0192'), ("circ", '\u02c6'), ("tilde", '\u02dc'),
   ("ensp", '\u2002'), ("emsp", '\u2003'), ("thinsp", '\u2009'), ("zwnj", '\u200c'),
   ("zwj", '\u200d'), ("lrm", '\u200e'), ("rlm", '\u200f'), ("ndash", '\u2013'),
   ("mdash", '\u2014'), ("lsquo", '\u2018'), ("rsquo", '\u2019'), ("sbquo", '\u201a'),
   ("ldquo", '\u201c'), ("rdquo", '\u201d'), ("bdquo", '\u201e'), ("dagger", '\u2020'),
   ("Dagger", '\u2021'), ("bull", '\u2022'), ("hellip", '\u2026'), ("permil", '\u2030'),
   ("prime", '\u2032'), ("Prime", '\u2033'), ("lsaquo", '\u2039'), ("rsaquo", '\u203a'),
   ("oline", '\u203e'), ("frasl", '\u2044'), ("euro", '\u20ac'), ("image", '\u2111'),
   ("weierp", '\u2118'), ("real", '\u211c'), ("trade", '\u2122'), ("alefsym", '\u2135'),
   ("larr", '\u2190'), ("uarr", '\u2191'), ("rarr", '\u2192'), ("darr", '\u2193'),
   ("harr", '\u2194'), ("crarr", '\u21b5'), ("lArr", '\u21d0'), ("uArr", '\u21d1'),
   ("rArr", '\u21d2'), ("dArr", '\u21d3'), ("hArr", '\u21d4'), ("forall", '\u2200'),
   ("part", '\u2202'), ("exist", '\u2203'), ("empty", '\u2205'), ("nabla", '\u2207'),
   ("isin", '\u2208'), ("notin", '\u2209'), ("ni", '\u220b'), ("prod", '\u220f'),
   ("sum", '\u2211'), ("minus", '\u2212'), ("lowast", '\u2217'), ("radic", '\u221a'),
   ("prop", '\u221d'), ("infin", '\u221e'), ("ang", '\u2220'), ("and", '\u2227'),
   ("or", '\u2228'), ("cap", '\u2229'), ("cup", '\u222a'), ("int", '\u222b'),
   ("there4", '\u2234'), ("sim", '\u223c'), ("cong", '\u2245'), ("asymp", '\u2248'),
   ("ne", '\u2260'), ("equiv", '\u2261'), ("le", '\u2264'), ("ge", '\u2265'),
   ("sub", '\u2282'), ("sup", '\u2283'), ("nsub", '\u2284'), ("sube", '\u2286'),
   ("supe", '\u2287'), ("oplus", '\u2295'), ("otimes", '\u2297'), ("perp", '\u22a5'),
   ("sdot", '\u22c5'), ("lceil", '\u2308'), ("rceil", '\u2309'), ("lfloor", '\u230a'),
   ("rfloor", '\u230b'), ("lang", '\u27e8'), ("rang", '\u27e9'), ("loz", '\u25ca'),
   ("spades", '\u2660'), ("clubs", '\u2663'), ("hearts", '\u2665'), ("diams", '\u2666'),
   ("TRADE", '\u2122')]

/-- The names of the other characters of ASCII. -/
def asciiNames : List (String × Char) :=
  [("Tab", '\u0009'), ("NewLine", '\u000a'), ("excl", '\u0021'), ("num", '\u0023'),
   ("dollar", '\u0024'), ("percnt", '\u0025'), ("lpar", '\u0028'), ("rpar", '\u0029'),
   ("ast", '\u002a'), ("midast", '\u002a'), ("plus", '\u002b'), ("comma", '\u002c'),
   ("period", '\u002e'), ("sol", '\u002f'), ("colon", '\u003a'), ("semi", '\u003b'),
   ("equals", '\u003d'), ("quest", '\u003f'), ("commat", '\u0040'), ("lbrack", '\u005b'),
   ("lsqb", '\u005b'), ("bsol", '\u005c'), ("rbrack", '\u005d'), ("rsqb", '\u005d'),
   ("Hat", '\u005e'), ("UnderBar", '\u005f'), ("lowbar", '\u005f'), ("DiacriticalGrave", '\u0060'),
   ("grave", '\u0060'), ("lbrace", '\u007b'), ("lcub", '\u007b'), ("VerticalLine", '\u007c'),
   ("verbar", '\u007c'), ("vert", '\u007c'), ("rbrace", '\u007d'), ("rcub", '\u007d')]

/-- The further names of the letters and signs of Latin script, and of its letters with marks. -/
def furtherLatinNames : List (String × Char) :=
  [("NonBreakingSpace", '\u00a0'), ("Dot", '\u00a8'), ("DoubleDot", '\u00a8'), ("die", '\u00a8'),
   ("circledR", '\u00ae'), ("strns", '\u00af'), ("PlusMinus", '\u00b1'), ("pm", '\u00b1'),
   ("DiacriticalAcute", '\u00b4'), ("CenterDot", '\u00b7'), ("centerdot", '\u00b7'),
   ("Cedilla", '\u00b8'), ("half", '\u00bd'), ("angst", '\u00c5'), ("div", '\u00f7'),
   ("Amacr", '\u0100'), ("amacr", '\u0101'), ("Abreve", '\u0102'), ("abreve", '\u0103'),
   ("Aogon", '\u0104'), ("aogon", '\u0105'), ("Cacute", '\u0106'), ("cacute", '\u0107'),
   ("Ccirc", '\u0108'), ("ccirc", '\u0109'), ("Cdot", '\u010a'), ("cdot", '\u010b'),
   ("Ccaron", '\u010c'), ("ccaron", '\u010d'), ("Dcaron", '\u010e'), ("dcaron", '\u010f'),
   ("Dstrok", '\u0110'), ("dstrok", '\u0111'), ("Emacr", '\u0112'), ("emacr", '\u0113'),
   ("Edot", '\u0116'), ("edot", '\u0117'), ("Eogon", '\u0118'), ("eogon", '\u0119'),
   ("Ecaron", '\u011a'), ("ecaron", '\u011b'), ("Gcirc", '\u011c'), ("gcirc", '\u011d'),
   ("Gbreve", '\u011e'), ("gbreve", '\u011f'), ("Gdot", '\u0120'), ("gdot", '\u0121'),
   ("Gcedil", '\u0122'), ("Hcirc", '\u0124'), ("hcirc", '\u0125'), ("Hstrok", '\u0126'),
   ("hstrok", '\u0127'), ("Itilde", '\u0128'), ("itilde", '\u0129'), ("Imacr", '\u012a'),
   ("imacr", '\u012b'), ("Iogon", '\u012e'), ("iogon", '\u012f'), ("Idot", '\u0130'),
   ("imath", '\u0131'), ("inodot", '\u0131'), ("IJlig", '\u0132'), ("ijlig", '\u0133'),
   ("Jcirc", '\u0134'), ("jcirc", '\u0135'), ("Kcedil", '\u0136'), ("kcedil", '\u0137'),
   ("kgreen", '\u0138'), ("Lacute", '\u0139'), ("lacute", '\u013a'), ("Lcedil", '\u013b'),
   ("lcedil", '\u013c'), ("Lcaron", '\u013d'), ("lcaron", '\u013e'), ("Lmidot", '\u013f'),
   ("lmidot", '\u0140'), ("Lstrok", '\u0141'), ("lstrok", '\u0142'), ("Nacute", '\u0143'),
   ("nacute", '\u0144'), ("Ncedil", '\u0145'), ("ncedil", '\u0146'), ("Ncaron", '\u0147'),
   ("ncaron", '\u0148'), ("napos", '\u0149'), ("ENG", '\u014a'), ("eng", '\u014b'),
   ("Omacr", '\u014c'), ("omacr", '\u014d'), ("Odblac", '\u0150'), ("odblac", '\u0151'),
   ("Racute", '\u0154'), ("racute", '\u0155'), ("Rcedil", '\u0156'), ("rcedil", '\u0157'),
   ("Rcaron", '\u0158'), ("rcaron", '\u0159'), ("Sacute", '\u015a'), ("sacute", '\u015b'),
   ("Scirc", '\u015c'), ("scirc", '\u015d'), ("Scedil", '\u015e'), ("scedil", '\u015f'),
   ("Tcedil", '\u0162'), ("tcedil", '\u0163'), ("Tcaron", '\u0164'), ("tcaron", '\u0165'),
   ("Tstrok", '\u0166'), ("tstrok", '\u0167'), ("Utilde", '\u0168'), ("utilde", '\u0169'),
   ("Umacr", '\u016a'), ("umacr", '\u016b'), ("Ubreve", '\u016c'), ("ubreve", '\u016d'),
   ("Uring", '\u016e'), ("uring", '\u016f'), ("Udblac", '\u0170'), ("udblac", '\u0171'),
   ("Uogon", '\u0172'), ("uogon", '\u0173'), ("Wcirc", '\u0174'), ("wcirc", '\u0175'),
   ("Ycirc", '\u0176'), ("ycirc", '\u0177'), ("Zacute", '\u0179'), ("zacute", '\u017a'),
   ("Zdot", '\u017b'), ("zdot", '\u017c'), ("Zcaron", '\u017d'), ("zcaron", '\u017e'),
   ("imped", '\u01b5'), ("gacute", '\u01f5'), ("jmath", '\u0237')]

/-- The names of the marks that stand by themselves or go with a letter. -/
def markNames : List (String × Char) :=
  [("Hacek", '\u02c7'), ("caron", '\u02c7'), ("Breve", '\u02d8'), ("breve", '\u02d8'),
   ("DiacriticalDot", '\u02d9'), ("dot", '\u02d9'), ("ring", '\u02da'), ("ogon", '\u02db'),
   ("DiacriticalTilde", '\u02dc'), ("DiacriticalDoubleAcute", '\u02dd'), ("dblac", '\u02dd'),
   ("DownBreve", '\u0311')]

/-- The further names of the letters of Greek script. -/
def furtherGreekNames : List (String × Char) :=
  [("ohm", '\u03a9'), ("epsi", '\u03b5'), ("sigmav", '\u03c2'), ("varsigma", '\u03c2'),
   ("upsi", '\u03c5'), ("thetav", '\u03d1'), ("vartheta", '\u03d1'), ("Upsi", '\u03d2'),
   ("phiv", '\u03d5'), ("straightphi", '\u03d5'), ("varphi", '\u03d5'), ("varpi", '\u03d6'),
   ("Gammad", '\u03dc'), ("digamma", '\u03dd'), ("gammad", '\u03dd'), ("kappav", '\u03f0'),
   ("varkappa", '\u03f0'), ("rhov", '\u03f1'), ("varrho", '\u03f1'), ("epsiv", '\u03f5'),
   ("straightepsilon", '\u03f5'), ("varepsilon", '\u03f5'), ("backepsilon", '\u03f6'),
   ("bepsi", '\u03f6')]

/-- The names of the letters of Cyrillic script. -/
def cyrillicNames : List (String × Char) :=
  [("IOcy", '\u0401'), ("DJcy", '\u0402'), ("GJcy", '\u0403'), ("Jukcy", '\u0404'),
   ("DScy", '\u0405'), ("Iukcy", '\u0406'), ("YIcy", '\u0407'), ("Jsercy", '\u0408'),
   ("LJcy", '\u0409'), ("NJcy", '\u040a'), ("TSHcy", '\u040b'), ("KJcy", '\u040c'),
   ("Ubrcy", '\u040e'), ("DZcy", '\u040f'), ("Acy", '\u0410'), ("Bcy", '\u0411'), ("Vcy", '\u0412'),
   ("Gcy", '\u0413'), ("Dcy", '\u0414'), ("IEcy", '\u0415'), ("ZHcy", '\u0416'), ("Zcy", '\u0417'),
   ("Icy", '\u0418'), ("Jcy", '\u0419'), ("Kcy", '\u041a'), ("Lcy", '\u041b'), ("Mcy", '\u041c'),
   ("Ncy", '\u041d'), ("Ocy", '\u041e'), ("Pcy", '\u041f'), ("Rcy", '\u0420'), ("Scy", '\u0421'),
   ("Tcy", '\u0422'), ("Ucy", '\u0423'), ("Fcy", '\u0424'), ("KHcy", '\u0425'), ("TScy", '\u0426'),
   ("CHcy", '\u0427'), ("SHcy", '\u0428'), ("SHCHcy", '\u0429'), ("HARDcy", '\u042a'),
   ("Ycy", '\u042b'), ("SOFTcy", '\u042c'), ("Ecy", '\u042d'), ("YUcy", '\u042e'),
   ("YAcy", '\u042f'), ("acy", '\u0430'), ("bcy", '\u0431'), ("vcy", '\u0432'), ("gcy", '\u0433'),
   ("dcy", '\u0434'), ("iecy", '\u0435'), ("zhcy", '\u0436'), ("zcy", '\u0437'), ("icy", '\u0438'),
   ("jcy", '\u0439'), ("kcy", '\u043a'), ("lcy", '\u043b'), ("mcy", '\u043c'), ("ncy", '\u043d'),
   ("ocy", '\u043e'), ("pcy", '\u043f'), ("rcy", '\u0440'), ("scy", '\u0441'), ("tcy", '\u0442'),
   ("ucy", '\u0443'), ("fcy", '\u0444'), ("khcy", '\u0445'), ("tscy", '\u0446'), ("chcy", '\u0447'),
   ("shcy", '\u0448'), ("shchcy", '\u0449'), ("hardcy", '\u044a'), ("ycy", '\u044b'),
   ("softcy", '\u044c'), ("ecy", '\u044d'), ("yucy", '\u044e'), ("yacy", '\u044f'),
   ("iocy", '\u0451'), ("djcy", '\u0452'), ("gjcy", '\u0453'), ("jukcy", '\u0454'),
   ("dscy", '\u0455'), ("iukcy", '\u0456'), ("yicy", '\u0457'), ("jsercy", '\u0458'),
   ("ljcy", '\u0459'), ("njcy", '\u045a'), ("tshcy", '\u045b'), ("kjcy", '\u045c'),
   ("ubrcy", '\u045e'), ("dzcy", '\u045f')]

/-- The further names of blanks and of signs of punctuation. -/
def punctuationNames : List (String × Char) :=
  [("emsp13", '\u2004'), ("emsp14", '\u2005'), ("numsp", '\u2007'), ("puncsp", '\u2008'),
   ("ThinSpace", '\u2009'), ("VeryThinSpace", '\u200a'), ("hairsp", '\u200a'),
   ("NegativeMediumSpace", '\u200b'), ("NegativeThickSpace", '\u200b'),
   ("NegativeThinSpace", '\u200b'), ("NegativeVeryThinSpace", '\u200b'),
   ("ZeroWidthSpace", '\u200b'), ("dash", '\u2010'), ("hyphen", '\u2010'), ("horbar", '\u2015'),
   ("Verbar", '\u2016'), ("Vert", '\u2016'), ("OpenCurlyQuote", '\u2018'),
   ("CloseCurlyQuote", '\u2019'), ("rsquor", '\u2019'), ("lsquor", '\u201a'),
   ("OpenCurlyDoubleQuote", '\u201c'), ("CloseCurlyDoubleQuote", '\u201d'), ("rdquor", '\u201d'),
   ("ldquor", '\u201e'), ("ddagger", '\u2021'), ("bullet", '\u2022'), ("nldr", '\u2025'),
   ("mldr", '\u2026'), ("pertenk", '\u2031'), ("tprime", '\u2034'), ("backprime", '\u2035'),
   ("bprime", '\u2035'), ("OverBar", '\u203e'), ("caret", '\u2041'), ("hybull", '\u2043'),
   ("bsemi", '\u204f'), ("qprime", '\u2057'), ("MediumSpace", '\u205f'), ("NoBreak", '\u2060'),
   ("ApplyFunction", '\u2061'), ("af", '\u2061'), ("InvisibleTimes", '\u2062'), ("it", '\u2062'),
   ("InvisibleComma", '\u2063'), ("ic", '\u2063'), ("TripleDot", '\u20db'), ("tdot", '\u20db'),
   ("DotDot", '\u20dc')]

/-- The further names of signs that look like letters, and of fractions. -/
def letterlikeNames : List (String × Char) :=
  [("Copf", '\u2102'), ("complexes", '\u2102'), ("incare", '\u2105'), ("gscr", '\u210a'),
   ("HilbertSpace", '\u210b'), ("Hscr", '\u210b'), ("hamilt", '\u210b'), ("Hfr", '\u210c'),
   ("Poincareplane", '\u210c'), ("Hopf", '\u210d'), ("quaternions", '\u210d'),
   ("planckh", '\u210e'), ("hbar", '\u210f'), ("hslash", '\u210f'), ("planck", '\u210f'),
   ("plankv", '\u210f'), ("Iscr", '\u2110'), ("imagline", '\u2110'), ("Ifr", '\u2111'),
   ("Im", '\u2111'), ("imagpart", '\u2111'), ("Laplacetrf", '\u2112'), ("Lscr", '\u2112'),
   ("lagran", '\u2112'), ("ell", '\u2113'), ("Nopf", '\u2115'), ("naturals", '\u2115'),
   ("numero", '\u2116'), ("copysr", '\u2117'), ("wp", '\u2118'), ("Popf", '\u2119'),
   ("primes", '\u2119'), ("Qopf", '\u211a'), ("rationals", '\u211a'), ("Rscr", '\u211b'),
   ("realine", '\u211b'), ("Re", '\u211c'), ("Rfr", '\u211c'), ("realpart", '\u211c'),
   ("Ropf", '\u211d'), ("reals", '\u211d'), ("rx", '\u211e'), ("Zopf", '\u2124'),
   ("integers", '\u2124'), ("mho", '\u2127'), ("Zfr", '\u2128'), ("zeetrf", '\u2128'),
   ("iiota", '\u2129'), ("Bernoullis", '\u212c'), ("Bscr", '\u212c'), ("bernou", '\u212c'),
   ("Cayleys", '\u212d'), ("Cfr", '\u212d'), ("escr", '\u212f'), ("Escr", '\u2130'),
   ("expectation", '\u2130'), ("Fouriertrf", '\u2131'), ("Fscr", '\u2131'), ("Mellintrf", '\u2133'),
   ("Mscr", '\u2133'), ("phmmat", '\u2133'), ("order", '\u2134'), ("orderof", '\u2134'),
   ("oscr", '\u2134'), ("aleph", '\u2135'), ("beth", '\u2136'), ("gimel", '\u2137'),
   ("daleth", '\u2138'), ("CapitalDifferentialD", '\u2145'), ("DD", '\u2145'),
   ("DifferentialD", '\u2146'), ("dd", '\u2146'), ("ExponentialE", '\u2147'), ("ee", '\u2147'),
   ("exponentiale", '\u2147'), ("ImaginaryI", '\u2148'), ("ii", '\u2148'), ("frac13", '\u2153'),
   ("frac23", '\u2154'), ("frac15", '\u2155'), ("frac25", '\u2156'), ("frac35", '\u2157'),
   ("frac45", '\u2158'), ("frac16", '\u2159'), ("frac56", '\u215a'), ("frac18", '\u215b'),
   ("frac38", '\u215c'), ("frac58", '\u215d'), ("frac78", '\u215e')]

/-- The further names of arrows. -/
def arrowNames : List (String × Char) :=
  [("LeftArrow", '\u2190'), ("ShortLeftArrow", '\u2190'), ("leftarrow", '\u2190'),
   ("slarr", '\u2190'), ("ShortUpArrow", '\u2191'), ("UpArrow", '\u2191'), ("uparrow", '\u2191'),
   ("RightArrow", '\u2192'), ("ShortRightArrow", '\u2192'), ("rightarrow", '\u2192'),
   ("srarr", '\u2192'), ("DownArrow", '\u2193'), ("ShortDownArrow", '\u2193'),
   ("downarrow", '\u2193'), ("LeftRightArrow", '\u2194'), ("leftrightarrow", '\u2194'),
   ("UpDownArrow", '\u2195'), ("updownarrow", '\u2195'), ("varr", '\u2195'),
   ("UpperLeftArrow", '\u2196'), ("nwarr", '\u2196'), ("nwarrow", '\u2196'),
   ("UpperRightArrow", '\u2197'), ("nearr", '\u2197'), ("nearrow", '\u2197'),
   ("LowerRightArrow", '\u2198'), ("searr", '\u2198'), ("searrow", '\u2198'),
   ("LowerLeftArrow", '\u2199'), ("swarr", '\u2199'), ("swarrow", '\u2199'), ("nlarr", '\u219a'),
   ("nleftarrow", '\u219a'), ("nrarr", '\u219b'), ("nrightarrow", '\u219b'), ("rarrw", '\u219d'),
   ("rightsquigarrow", '\u219d'), ("Larr", '\u219e'), ("twoheadleftarrow", '\u219e'),
   ("Uarr", '\u219f'), ("Rarr", '\u21a0'), ("twoheadrightarrow", '\u21a0'), ("Darr", '\u21a1'),
   ("larrtl", '\u21a2'), ("leftarrowtail", '\u21a2'), ("rarrtl", '\u21a3'),
   ("rightarrowtail", '\u21a3'), ("LeftTeeArrow", '\u21a4'), ("mapstoleft", '\u21a4'),
   ("UpTeeArrow", '\u21a5'), ("mapstoup", '\u21a5'), ("RightTeeArrow", '\u21a6'), ("map", '\u21a6'),
   ("mapsto", '\u21a6'), ("DownTeeArrow", '\u21a7'), ("mapstodown", '\u21a7'),
   ("hookleftarrow", '\u21a9'), ("larrhk", '\u21a9'), ("hookrightarrow", '\u21aa'),
   ("rarrhk", '\u21aa'), ("larrlp", '\u21ab'), ("looparrowleft", '\u21ab'),
   ("looparrowright", '\u21ac'), ("rarrlp", '\u21ac'), ("harrw", '\u21ad'),
   ("leftrightsquigarrow", '\u21ad'), ("nharr", '\u21ae'), ("nleftrightarrow", '\u21ae'),
   ("Lsh", '\u21b0'), ("lsh", '\u21b0'), ("Rsh", '\u21b1'), ("rsh", '\u21b1'), ("ldsh", '\u21b2'),
   ("rdsh", '\u21b3'), ("cularr", '\u21b6'), ("curvearrowleft", '\u21b6'), ("curarr", '\u21b7'),
   ("curvearrowright", '\u21b7'), ("circlearrowleft", '\u21ba'), ("olarr", '\u21ba'),
   ("circlearrowright", '\u21bb'), ("orarr", '\u21bb'), ("LeftVector", '\u21bc'),
   ("leftharpoonup", '\u21bc'), ("lharu", '\u21bc'), ("DownLeftVector", '\u21bd'),
   ("leftharpoondown", '\u21bd'), ("lhard", '\u21bd'), ("RightUpVector", '\u21be'),
   ("uharr", '\u21be'), ("upharpoonright", '\u21be'), ("LeftUpVector", '\u21bf'),
   ("uharl", '\u21bf'), ("upharpoonleft", '\u21bf'), ("RightVector", '\u21c0'), ("rharu", '\u21c0'),
   ("rightharpoonup", '\u21c0'), ("DownRightVector", '\u21c1'), ("rhard", '\u21c1'),
   ("rightharpoondown", '\u21c1'), ("RightDownVector", '\u21c2'), ("dharr", '\u21c2'),
   ("downharpoonright", '\u21c2'), ("LeftDownVector", '\u21c3'), ("dharl", '\u21c3'),
   ("downharpoonleft", '\u21c3'), ("RightArrowLeftArrow", '\u21c4'), ("rightleftarrows", '\u21c4'),
   ("rlarr", '\u21c4'), ("UpArrowDownArrow", '\u21c5'), ("udarr", '\u21c5'),
   ("LeftArrowRightArrow", '\u21c6'), ("leftrightarrows", '\u21c6'), ("lrarr", '\u21c6'),
   ("leftleftarrows", '\u21c7'), ("llarr", '\u21c7'), ("upuparrows", '\u21c8'), ("uuarr", '\u21c8'),
   ("rightrightarrows", '\u21c9'), ("rrarr", '\u21c9'), ("ddarr", '\u21ca'),
   ("downdownarrows", '\u21ca'), ("ReverseEquilibrium", '\u21cb'), ("leftrightharpoons", '\u21cb'),
   ("lrhar", '\u21cb'), ("Equilibrium", '\u21cc'), ("rightleftharpoons", '\u21cc'),
   ("rlhar", '\u21cc'), ("nLeftarrow", '\u21cd'), ("nlArr", '\u21cd'),
   ("nLeftrightarrow", '\u21ce'), ("nhArr", '\u21ce'), ("nRightarrow", '\u21cf'),
   ("nrArr", '\u21cf'), ("DoubleLeftArrow", '\u21d0'), ("Leftarrow", '\u21d0'),
   ("DoubleUpArrow", '\u21d1'), ("Uparrow", '\u21d1'), ("DoubleRightArrow", '\u21d2'),
   ("Implies", '\u21d2'), ("Rightarrow", '\u21d2'), ("DoubleDownArrow", '\u21d3'),
   ("Downarrow", '\u21d3'), ("DoubleLeftRightArrow", '\u21d4'), ("Leftrightarrow", '\u21d4'),
   ("iff", '\u21d4'), ("DoubleUpDownArrow", '\u21d5'), ("Updownarrow", '\u21d5'),
   ("vArr", '\u21d5'), ("nwArr", '\u21d6'), ("neArr", '\u21d7'), ("seArr", '\u21d8'),
   ("swArr", '\u21d9'), ("Lleftarrow", '\u21da'), ("lAarr", '\u21da'), ("Rrightarrow", '\u21db'),
   ("rAarr", '\u21db'), ("zigrarr", '\u21dd'), ("LeftArrowBar", '\u21e4'), ("larrb", '\u21e4'),
   ("RightArrowBar", '\u21e5'), ("rarrb", '\u21e5'), ("DownArrowUpArrow", '\u21f5'),
   ("duarr", '\u21f5'), ("loarr", '\u21fd'), ("roarr", '\u21fe'), ("hoarr", '\u21ff')]

/-- The further names of mathematical operators. -/
def operatorNames : List (String × Char) :=
  [("ForAll", '\u2200'), ("comp", '\u2201'), ("complement", '\u2201'), ("PartialD", '\u2202'),
   ("Exists", '\u2203'), ("NotExists", '\u2204'), ("nexist", '\u2204'), ("nexists", '\u2204'),
   ("emptyset", '\u2205'), ("emptyv", '\u2205'), ("varnothing", '\u2205'), ("Del", '\u2207'),
   ("Element", '\u2208'), ("in", '\u2208'), ("isinv", '\u2208'), ("NotElement", '\u2209'),
   ("notinva", '\u2209'), ("ReverseElement", '\u220b'), ("SuchThat", '\u220b'), ("niv", '\u220b'),
   ("NotReverseElement", '\u220c'), ("notni", '\u220c'), ("notniva", '\u220c'),
   ("Product", '\u220f'), ("Coproduct", '\u2210'), ("coprod", '\u2210'), ("Sum", '\u2211'),
   ("MinusPlus", '\u2213'), ("mnplus", '\u2213'), ("mp", '\u2213'), ("dotplus", '\u2214'),
   ("plusdo", '\u2214'), ("Backslash", '\u2216'), ("setminus", '\u2216'), ("setmn", '\u2216'),
   ("smallsetminus", '\u2216'), ("ssetmn", '\u2216'), ("SmallCircle", '\u2218'),
   ("compfn", '\u2218'), ("Sqrt", '\u221a'), ("Proportional", '\u221d'), ("propto", '\u221d'),
   ("varpropto", '\u221d'), ("vprop", '\u221d'), ("angrt", '\u221f'), ("angle", '\u2220'),
   ("angmsd", '\u2221'), ("measuredangle", '\u2221'), ("angsph", '\u2222'),
   ("VerticalBar", '\u2223'), ("mid", '\u2223'), ("shortmid", '\u2223'), ("smid", '\u2223'),
   ("NotVerticalBar", '\u2224'), ("nmid", '\u2224'), ("nshortmid", '\u2224'), ("nsmid", '\u2224'),
   ("DoubleVerticalBar", '\u2225'), ("par", '\u2225'), ("parallel", '\u2225'),
   ("shortparallel", '\u2225'), ("spar", '\u2225'), ("NotDoubleVerticalBar", '\u2226'),
   ("npar", '\u2226'), ("nparallel", '\u2226'), ("nshortparallel", '\u2226'), ("nspar", '\u2226'),
   ("wedge", '\u2227'), ("vee", '\u2228'), ("Integral", '\u222b'), ("Int", '\u222c'),
   ("iiint", '\u222d'), ("tint", '\u222d'), ("ContourIntegral", '\u222e'), ("conint", '\u222e'),
   ("oint", '\u222e'), ("Conint", '\u222f'), ("DoubleContourIntegral", '\u222f'),
   ("Cconint", '\u2230'), ("cwint", '\u2231'), ("ClockwiseContourIntegral", '\u2232'),
   ("cwconint", '\u2232'), ("CounterClockwiseContourIntegral", '\u2233'), ("awconint", '\u2233'),
   ("Therefore", '\u2234'), ("therefore", '\u2234'), ("Because", '\u2235'), ("becaus", '\u2235'),
   ("because", '\u2235'), ("ratio", '\u2236'), ("Colon", '\u2237'), ("Proportion", '\u2237'),
   ("dotminus", '\u2238'), ("minusd", '\u2238'), ("mDDot", '\u223a'), ("homtht", '\u223b'),
   ("Tilde", '\u223c'), ("thicksim", '\u223c'), ("thksim", '\u223c'), ("backsim", '\u223d'),
   ("bsim", '\u223d'), ("ac", '\u223e'), ("mstpos", '\u223e'), ("acd", '\u223f'),
   ("VerticalTilde", '\u2240'), ("wr", '\u2240'), ("wreath", '\u2240'), ("NotTilde", '\u2241'),
   ("nsim", '\u2241'), ("EqualTilde", '\u2242'), ("eqsim", '\u2242'), ("esim", '\u2242'),
   ("TildeEqual", '\u2243'), ("sime", '\u2243'), ("simeq", '\u2243'), ("NotTildeEqual", '\u2244'),
   ("nsime", '\u2244'), ("nsimeq", '\u2244'), ("TildeFullEqual", '\u2245'), ("simne", '\u2246'),
   ("NotTildeFullEqual", '\u2247'), ("ncong", '\u2247'), ("TildeTilde", '\u2248'), ("ap", '\u2248'),
   ("approx", '\u2248'), ("thickapprox", '\u2248'), ("thkap", '\u2248'),
   ("NotTildeTilde", '\u2249'), ("nap", '\u2249'), ("napprox", '\u2249'), ("ape", '\u224a'),
   ("approxeq", '\u224a'), ("apid", '\u224b'), ("backcong", '\u224c'), ("bcong", '\u224c'),
   ("CupCap", '\u224d'), ("asympeq", '\u224d'), ("Bumpeq", '\u224e'), ("HumpDownHump", '\u224e'),
   ("bump", '\u224e'), ("HumpEqual", '\u224f'), ("bumpe", '\u224f'), ("bumpeq", '\u224f'),
   ("DotEqual", '\u2250'), ("doteq", '\u2250'), ("esdot", '\u2250'), ("doteqdot", '\u2251'),
   ("eDot", '\u2251'), ("efDot", '\u2252'), ("fallingdotseq", '\u2252'), ("erDot", '\u2253'),
   ("risingdotseq", '\u2253'), ("Assign", '\u2254'), ("colone", '\u2254'), ("coloneq", '\u2254'),
   ("ecolon", '\u2255'), ("eqcolon", '\u2255'), ("ecir", '\u2256'), ("eqcirc", '\u2256'),
   ("circeq", '\u2257'), ("cire", '\u2257'), ("wedgeq", '\u2259'), ("veeeq", '\u225a'),
   ("triangleq", '\u225c'), ("trie", '\u225c'), ("equest", '\u225f'), ("questeq", '\u225f'),
   ("NotEqual", '\u2260'), ("Congruent", '\u2261'), ("NotCongruent", '\u2262'),
   ("nequiv", '\u2262'), ("leq", '\u2264'), ("GreaterEqual", '\u2265'), ("geq", '\u2265'),
   ("LessFullEqual", '\u2266'), ("lE", '\u2266'), ("leqq", '\u2266'),
   ("GreaterFullEqual", '\u2267'), ("gE", '\u2267'), ("geqq", '\u2267'), ("lnE", '\u2268'),
   ("lneqq", '\u2268'), ("gnE", '\u2269'), ("gneqq", '\u2269'), ("Lt", '\u226a'),
   ("NestedLessLess", '\u226a'), ("ll", '\u226a'), ("Gt", '\u226b'),
   ("NestedGreaterGreater", '\u226b'), ("gg", '\u226b'), ("between", '\u226c'), ("twixt", '\u226c'),
   ("NotCupCap", '\u226d'), ("NotLess", '\u226e'), ("nless", '\u226e'), ("nlt", '\u226e'),
   ("NotGreater", '\u226f'), ("ngt", '\u226f'), ("ngtr", '\u226f'), ("NotLessEqual", '\u2270'),
   ("nle", '\u2270'), ("nleq", '\u2270'), ("NotGreaterEqual", '\u2271'), ("nge", '\u2271'),
   ("ngeq", '\u2271'), ("LessTilde", '\u2272'), ("lesssim", '\u2272'), ("lsim", '\u2272'),
   ("GreaterTilde", '\u2273'), ("gsim", '\u2273'), ("gtrsim", '\u2273'), ("NotLessTilde", '\u2274'),
   ("nlsim", '\u2274'), ("NotGreaterTilde", '\u2275'), ("ngsim", '\u2275'),
   ("LessGreater", '\u2276'), ("lessgtr", '\u2276'), ("lg", '\u2276'), ("GreaterLess", '\u2277'),
   ("gl", '\u2277'), ("gtrless", '\u2277'), ("NotLessGreater", '\u2278'), ("ntlg", '\u2278'),
   ("NotGreaterLess", '\u2279'), ("ntgl", '\u2279'), ("Precedes", '\u227a'), ("pr", '\u227a'),
   ("prec", '\u227a'), ("Succeeds", '\u227b'), ("sc", '\u227b'), ("succ", '\u227b'),
   ("PrecedesSlantEqual", '\u227c'), ("prcue", '\u227c'), ("preccurlyeq", '\u227c'),
   ("SucceedsSlantEqual", '\u227d'), ("sccue", '\u227d'), ("succcurlyeq", '\u227d'),
   ("PrecedesTilde", '\u227e'), ("precsim", '\u227e'), ("prsim", '\u227e'),
   ("SucceedsTilde", '\u227f'), ("scsim", '\u227f'), ("succsim", '\u227f'),
   ("NotPrecedes", '\u2280'), ("npr", '\u2280'), ("nprec", '\u2280'), ("NotSucceeds", '\u2281'),
   ("nsc", '\u2281'), ("nsucc", '\u2281'), ("subset", '\u2282'), ("Superset", '\u2283'),
   ("supset", '\u2283'), ("nsup", '\u2285'), ("SubsetEqual", '\u2286'), ("subseteq", '\u2286'),
   ("SupersetEqual", '\u2287'), ("supseteq", '\u2287'), ("NotSubsetEqual", '\u2288'),
   ("nsube", '\u2288'), ("nsubseteq", '\u2288'), ("NotSupersetEqual", '\u2289'),
   ("nsupe", '\u2289'), ("nsupseteq", '\u2289'), ("subne", '\u228a'), ("subsetneq", '\u228a'),
   ("supne", '\u228b'), ("supsetneq", '\u228b'), ("cupdot", '\u228d'), ("UnionPlus", '\u228e'),
   ("uplus", '\u228e'), ("SquareSubset", '\u228f'), ("sqsub", '\u228f'), ("sqsubset", '\u228f'),
   ("SquareSuperset", '\u2290'), ("sqsup", '\u2290'), ("sqsupset", '\u2290'),
   ("SquareSubsetEqual", '\u2291'), ("sqsube", '\u2291'), ("sqsubseteq", '\u2291'),
   ("SquareSupersetEqual", '\u2292'), ("sqsupe", '\u2292'), ("sqsupseteq", '\u2292'),
   ("SquareIntersection", '\u2293'), ("sqcap", '\u2293'), ("SquareUnion", '\u2294'),
   ("sqcup", '\u2294'), ("CirclePlus", '\u2295'), ("CircleMinus", '\u2296'), ("ominus", '\u2296'),
   ("CircleTimes", '\u2297'), ("osol", '\u2298'), ("CircleDot", '\u2299'), ("odot", '\u2299'),
   ("circledcirc", '\u229a'), ("ocir", '\u229a'), ("circledast", '\u229b'), ("oast", '\u229b'),
   ("circleddash", '\u229d'), ("odash", '\u229d'), ("boxplus", '\u229e'), ("plusb", '\u229e'),
   ("boxminus", '\u229f'), ("minusb", '\u229f'), ("boxtimes", '\u22a0'), ("timesb", '\u22a0'),
   ("dotsquare", '\u22a1'), ("sdotb", '\u22a1'), ("RightTee", '\u22a2'), ("vdash", '\u22a2'),
   ("LeftTee", '\u22a3'), ("dashv", '\u22a3'), ("DownTee", '\u22a4'), ("top", '\u22a4'),
   ("UpTee", '\u22a5'), ("bot", '\u22a5'), ("bottom", '\u22a5'), ("models", '\u22a7'),
   ("DoubleRightTee", '\u22a8'), ("vDash", '\u22a8'), ("Vdash", '\u22a9'), ("Vvdash", '\u22aa'),
   ("VDash", '\u22ab'), ("nvdash", '\u22ac'), ("nvDash", '\u22ad'), ("nVdash", '\u22ae'),
   ("nVDash", '\u22af'), ("prurel", '\u22b0'), ("LeftTriangle", '\u22b2'),
   ("vartriangleleft", '\u22b2'), ("vltri", '\u22b2'), ("RightTriangle", '\u22b3'),
   ("vartriangleright", '\u22b3'), ("vrtri", '\u22b3'), ("LeftTriangleEqual", '\u22b4'),
   ("ltrie", '\u22b4'), ("trianglelefteq", '\u22b4'), ("RightTriangleEqual", '\u22b5'),
   ("rtrie", '\u22b5'), ("trianglerighteq", '\u22b5'), ("origof", '\u22b6'), ("imof", '\u22b7'),
   ("multimap", '\u22b8'), ("mumap", '\u22b8'), ("hercon", '\u22b9'), ("intcal", '\u22ba'),
   ("intercal", '\u22ba'), ("veebar", '\u22bb'), ("barvee", '\u22bd'), ("angrtvb", '\u22be'),
   ("lrtri", '\u22bf'), ("Wedge", '\u22c0'), ("bigwedge", '\u22c0'), ("xwedge", '\u22c0'),
   ("Vee", '\u22c1'), ("bigvee", '\u22c1'), ("xvee", '\u22c1'), ("Intersection", '\u22c2'),
   ("bigcap", '\u22c2'), ("xcap", '\u22c2'), ("Union", '\u22c3'), ("bigcup", '\u22c3'),
   ("xcup", '\u22c3'), ("Diamond", '\u22c4'), ("diam", '\u22c4'), ("diamond", '\u22c4'),
   ("Star", '\u22c6'), ("sstarf", '\u22c6'), ("divideontimes", '\u22c7'), ("divonx", '\u22c7'),
   ("bowtie", '\u22c8'), ("ltimes", '\u22c9'), ("rtimes", '\u22ca'), ("leftthreetimes", '\u22cb'),
   ("lthree", '\u22cb'), ("rightthreetimes", '\u22cc'), ("rthree", '\u22cc'),
   ("backsimeq", '\u22cd'), ("bsime", '\u22cd'), ("curlyvee", '\u22ce'), ("cuvee", '\u22ce'),
   ("curlywedge", '\u22cf'), ("cuwed", '\u22cf'), ("Sub", '\u22d0'), ("Subset", '\u22d0'),
   ("Sup", '\u22d1'), ("Supset", '\u22d1'), ("Cap", '\u22d2'), ("Cup", '\u22d3'),
   ("fork", '\u22d4'), ("pitchfork", '\u22d4'), ("epar", '\u22d5'), ("lessdot", '\u22d6'),
   ("ltdot", '\u22d6'), ("gtdot", '\u22d7'), ("gtrdot", '\u22d7'), ("Ll", '\u22d8'),
   ("Gg", '\u22d9'), ("ggg", '\u22d9'), ("LessEqualGreater", '\u22da'), ("leg", '\u22da'),
   ("lesseqgtr", '\u22da'), ("GreaterEqualLess", '\u22db'), ("gel", '\u22db'),
   ("gtreqless", '\u22db'), ("cuepr", '\u22de'), ("curlyeqprec", '\u22de'), ("cuesc", '\u22df'),
   ("curlyeqsucc", '\u22df'), ("NotPrecedesSlantEqual", '\u22e0'), ("nprcue", '\u22e0'),
   ("NotSucceedsSlantEqual", '\u22e1'), ("nsccue", '\u22e1'), ("NotSquareSubsetEqual", '\u22e2'),
   ("nsqsube", '\u22e2'), ("NotSquareSupersetEqual", '\u22e3'), ("nsqsupe", '\u22e3'),
   ("lnsim", '\u22e6'), ("gnsim", '\u22e7'), ("precnsim", '\u22e8'), ("prnsim", '\u22e8'),
   ("scnsim", '\u22e9'), ("succnsim", '\u22e9'), ("NotLeftTriangle", '\u22ea'), ("nltri", '\u22ea'),
   ("ntriangleleft", '\u22ea'), ("NotRightTriangle", '\u22eb'), ("nrtri", '\u22eb'),
   ("ntriangleright", '\u22eb'), ("NotLeftTriangleEqual", '\u22ec'), ("nltrie", '\u22ec'),
   ("ntrianglelefteq", '\u22ec'), ("NotRightTriangleEqual", '\u22ed'), ("nrtrie", '\u22ed'),
   ("ntrianglerighteq", '\u22ed'), ("vellip", '\u22ee'), ("ctdot", '\u22ef'), ("utdot", '\u22f0'),
   ("dtdot", '\u22f1'), ("disin", '\u22f2'), ("isinsv", '\u22f3'), ("isins", '\u22f4'),
   ("isindot", '\u22f5'), ("notinvc", '\u22f6'), ("notinvb", '\u22f7'), ("isinE", '\u22f9'),
   ("nisd", '\u22fa'), ("xnis", '\u22fb'), ("nis", '\u22fc'), ("notnivc", '\u22fd'),
   ("notnivb", '\u22fe')]

/-- The further names of technical signs. -/
def technicalNames : List (String × Char) :=
  [("barwed", '\u2305'), ("barwedge", '\u2305'), ("Barwed", '\u2306'), ("doublebarwedge", '\u2306'),
   ("LeftCeiling", '\u2308'), ("RightCeiling", '\u2309'), ("LeftFloor", '\u230a'),
   ("RightFloor", '\u230b'), ("drcrop", '\u230c'), ("dlcrop", '\u230d'), ("urcrop", '\u230e'),
   ("ulcrop", '\u230f'), ("bnot", '\u2310'), ("profline", '\u2312'), ("profsurf", '\u2313'),
   ("telrec", '\u2315'), ("target", '\u2316'), ("ulcorn", '\u231c'), ("ulcorner", '\u231c'),
   ("urcorn", '\u231d'), ("urcorner", '\u231d'), ("dlcorn", '\u231e'), ("llcorner", '\u231e'),
   ("drcorn", '\u231f'), ("lrcorner", '\u231f'), ("frown", '\u2322'), ("sfrown", '\u2322'),
   ("smile", '\u2323'), ("ssmile", '\u2323'), ("cylcty", '\u232d'), ("profalar", '\u232e'),
   ("topbot", '\u2336'), ("ovbar", '\u233d'), ("solbar", '\u233f'), ("angzarr", '\u237c'),
   ("lmoust", '\u23b0'), ("lmoustache", '\u23b0'), ("rmoust", '\u23b1'), ("rmoustache", '\u23b1'),
   ("OverBracket", '\u23b4'), ("tbrk", '\u23b4'), ("UnderBracket", '\u23b5'), ("bbrk", '\u23b5'),
   ("bbrktbrk", '\u23b6'), ("OverParenthesis", '\u23dc'), ("UnderParenthesis", '\u23dd'),
   ("OverBrace", '\u23de'), ("UnderBrace", '\u23df'), ("trpezium", '\u23e2'),
   ("elinters", '\u23e7'), ("blank", '\u2423'), ("circledS", '\u24c8'), ("oS", '\u24c8')]

/-- The further names of lines, boxes and shapes. -/
def shapeNames : List (String × Char) :=
  [("HorizontalLine", '\u2500'), ("boxh", '\u2500'), ("boxv", '\u2502'), ("boxdr", '\u250c'),
   ("boxdl", '\u2510'), ("boxur", '\u2514'), ("boxul", '\u2518'), ("boxvr", '\u251c'),
   ("boxvl", '\u2524'), ("boxhd", '\u252c'), ("boxhu", '\u2534'), ("boxvh", '\u253c'),
   ("boxH", '\u2550'), ("boxV", '\u2551'), ("boxdR", '\u2552'), ("boxDr", '\u2553'),
   ("boxDR", '\u2554'), ("boxdL", '\u2555'), ("boxDl", '\u2556'), ("boxDL", '\u2557'),
   ("boxuR", '\u2558'), ("boxUr", '\u2559'), ("boxUR", '\u255a'), ("boxuL", '\u255b'),
   ("boxUl", '\u255c'), ("boxUL", '\u255d'), ("boxvR", '\u255e'), ("boxVr", '\u255f'),
   ("boxVR", '\u2560'), ("boxvL", '\u2561'), ("boxVl", '\u2562'), ("boxVL", '\u2563'),
   ("boxHd", '\u2564'), ("boxhD", '\u2565'), ("boxHD", '\u2566'), ("boxHu", '\u2567'),
   ("boxhU", '\u2568'), ("boxHU", '\u2569'), ("boxvH", '\u256a'), ("boxVh", '\u256b'),
   ("boxVH", '\u256c'), ("uhblk", '\u2580'), ("lhblk", '\u2584'), ("block", '\u2588'),
   ("blk14", '\u2591'), ("blk12", '\u2592'), ("blk34", '\u2593'), ("Square", '\u25a1'),
   ("squ", '\u25a1'), ("square", '\u25a1'), ("FilledVerySmallSquare", '\u25aa'),
   ("blacksquare", '\u25aa'), ("squarf", '\u25aa'), ("squf", '\u25aa'),
   ("EmptyVerySmallSquare", '\u25ab'), ("rect", '\u25ad'), ("marker", '\u25ae'),
   ("fltns", '\u25b1'), ("bigtriangleup", '\u25b3'), ("xutri", '\u25b3'),
   ("blacktriangle", '\u25b4'), ("utrif", '\u25b4'), ("triangle", '\u25b5'), ("utri", '\u25b5'),
   ("blacktriangleright", '\u25b8'), ("rtrif", '\u25b8'), ("rtri", '\u25b9'),
   ("triangleright", '\u25b9'), ("bigtriangledown", '\u25bd'), ("xdtri", '\u25bd'),
   ("blacktriangledown", '\u25be'), ("dtrif", '\u25be'), ("dtri", '\u25bf'),
   ("triangledown", '\u25bf'), ("blacktriangleleft", '\u25c2'), ("ltrif", '\u25c2'),
   ("ltri", '\u25c3'), ("triangleleft", '\u25c3'), ("lozenge", '\u25ca'), ("cir", '\u25cb'),
   ("tridot", '\u25ec'), ("bigcirc", '\u25ef'), ("xcirc", '\u25ef'), ("ultri", '\u25f8'),
   ("urtri", '\u25f9'), ("lltri", '\u25fa'), ("EmptySmallSquare", '\u25fb'),
   ("FilledSmallSquare", '\u25fc'), ("bigstar", '\u2605'), ("starf", '\u2605'), ("star", '\u2606'),
   ("phone", '\u260e'), ("female", '\u2640'), ("male", '\u2642'), ("spadesuit", '\u2660'),
   ("clubsuit", '\u2663'), ("heartsuit", '\u2665'), ("diamondsuit", '\u2666'), ("sung", '\u266a'),
   ("flat", '\u266d'), ("natur", '\u266e'), ("natural", '\u266e'), ("sharp", '\u266f'),
   ("check", '\u2713'), ("checkmark", '\u2713'), ("cross", '\u2717'), ("malt", '\u2720'),
   ("maltese", '\u2720'), ("sext", '\u2736'), ("VerticalSeparator", '\u2758'), ("lbbrk", '\u2772'),
   ("rbbrk", '\u2773')]

/-- The names of brackets, and of long and compound arrows. -/
def longArrowNames : List (String × Char) :=
  [("bsolhsub", '\u27c8'), ("suphsol", '\u27c9'), ("LeftDoubleBracket", '\u27e6'),
   ("lobrk", '\u27e6'), ("RightDoubleBracket", '\u27e7'), ("robrk", '\u27e7'),
   ("LeftAngleBracket", '\u27e8'), ("langle", '\u27e8'), ("RightAngleBracket", '\u27e9'),
   ("rangle", '\u27e9'), ("Lang", '\u27ea'), ("Rang", '\u27eb'), ("loang", '\u27ec'),
   ("roang", '\u27ed'), ("LongLeftArrow", '\u27f5'), ("longleftarrow", '\u27f5'),
   ("xlarr", '\u27f5'), ("LongRightArrow", '\u27f6'), ("longrightarrow", '\u27f6'),
   ("xrarr", '\u27f6'), ("LongLeftRightArrow", '\u27f7'), ("longleftrightarrow", '\u27f7'),
   ("xharr", '\u27f7'), ("DoubleLongLeftArrow", '\u27f8'), ("Longleftarrow", '\u27f8'),
   ("xlArr", '\u27f8'), ("DoubleLongRightArrow", '\u27f9'), ("Longrightarrow", '\u27f9'),
   ("xrArr", '\u27f9'), ("DoubleLongLeftRightArrow", '\u27fa'), ("Longleftrightarrow", '\u27fa'),
   ("xhArr", '\u27fa'), ("longmapsto", '\u27fc'), ("xmap", '\u27fc'), ("dzigrarr", '\u27ff'),
   ("nvlArr", '\u2902'), ("nvrArr", '\u2903'), ("nvHarr", '\u2904'), ("Map", '\u2905'),
   ("lbarr", '\u290c'), ("bkarow", '\u290d'), ("rbarr", '\u290d'), ("lBarr", '\u290e'),
   ("dbkarow", '\u290f'), ("rBarr", '\u290f'), ("RBarr", '\u2910'), ("drbkarow", '\u2910'),
   ("DDotrahd", '\u2911'), ("UpArrowBar", '\u2912'), ("DownArrowBar", '\u2913'),
   ("Rarrtl", '\u2916'), ("latail", '\u2919'), ("ratail", '\u291a'), ("lAtail", '\u291b'),
   ("rAtail", '\u291c'), ("larrfs", '\u291d'), ("rarrfs", '\u291e'), ("larrbfs", '\u291f'),
   ("rarrbfs", '\u2920'), ("nwarhk", '\u2923'), ("nearhk", '\u2924'), ("hksearow", '\u2925'),
   ("searhk", '\u2925'), ("hkswarow", '\u2926'), ("swarhk", '\u2926'), ("nwnear", '\u2927'),
   ("nesear", '\u2928'), ("toea", '\u2928'), ("seswar", '\u2929'), ("tosa", '\u2929'),
   ("swnwar", '\u292a'), ("rarrc", '\u2933'), ("cudarrr", '\u2935'), ("ldca", '\u2936'),
   ("rdca", '\u2937'), ("cudarrl", '\u2938'), ("larrpl", '\u2939'), ("curarrm", '\u293c'),
   ("cularrp", '\u293d'), ("rarrpl", '\u2945'), ("harrcir", '\u2948'), ("Uarrocir", '\u2949'),
   ("lurdshar", '\u294a'), ("ldrushar", '\u294b'), ("LeftRightVector", '\u294e'),
   ("RightUpDownVector", '\u294f'), ("DownLeftRightVector", '\u2950'),
   ("LeftUpDownVector", '\u2951'), ("LeftVectorBar", '\u2952'), ("RightVectorBar", '\u2953'),
   ("RightUpVectorBar", '\u2954'), ("RightDownVectorBar", '\u2955'),
   ("DownLeftVectorBar", '\u2956'), ("DownRightVectorBar", '\u2957'), ("LeftUpVectorBar", '\u2958'),
   ("LeftDownVectorBar", '\u2959'), ("LeftTeeVector", '\u295a'), ("RightTeeVector", '\u295b'),
   ("RightUpTeeVector", '\u295c'), ("RightDownTeeVector", '\u295d'),
   ("DownLeftTeeVector", '\u295e'), ("DownRightTeeVector", '\u295f'), ("LeftUpTeeVector", '\u2960'),
   ("LeftDownTeeVector", '\u2961'), ("lHar", '\u2962'), ("uHar", '\u2963'), ("rHar", '\u2964'),
   ("dHar", '\u2965'), ("luruhar", '\u2966'), ("ldrdhar", '\u2967'), ("ruluhar", '\u2968'),
   ("rdldhar", '\u2969'), ("lharul", '\u296a'), ("llhard", '\u296b'), ("rharul", '\u296c'),
   ("lrhard", '\u296d'), ("UpEquilibrium", '\u296e'), ("udhar", '\u296e'),
   ("ReverseUpEquilibrium", '\u296f'), ("duhar", '\u296f'), ("RoundImplies", '\u2970'),
   ("erarr", '\u2971'), ("simrarr", '\u2972'), ("larrsim", '\u2973'), ("rarrsim", '\u2974'),
   ("rarrap", '\u2975'), ("ltlarr", '\u2976'), ("gtrarr", '\u2978'), ("subrarr", '\u2979'),
   ("suplarr", '\u297b'), ("lfisht", '\u297c'), ("rfisht", '\u297d'), ("ufisht", '\u297e'),
   ("dfisht", '\u297f')]

/-- The names of compound mathematical signs. -/
def compoundNames : List (String × Char) :=
  [("lopar", '\u2985'), ("ropar", '\u2986'), ("lbrke", '\u298b'), ("rbrke", '\u298c'),
   ("lbrkslu", '\u298d'), ("rbrksld", '\u298e'), ("lbrksld", '\u298f'), ("rbrkslu", '\u2990'),
   ("langd", '\u2991'), ("rangd", '\u2992'), ("lparlt", '\u2993'), ("rpargt", '\u2994'),
   ("gtlPar", '\u2995'), ("ltrPar", '\u2996'), ("vzigzag", '\u299a'), ("vangrt", '\u299c'),
   ("angrtvbd", '\u299d'), ("ange", '\u29a4'), ("range", '\u29a5'), ("dwangle", '\u29a6'),
   ("uwangle", '\u29a7'), ("angmsdaa", '\u29a8'), ("angmsdab", '\u29a9'), ("angmsdac", '\u29aa'),
   ("angmsdad", '\u29ab'), ("angmsdae", '\u29ac'), ("angmsdaf", '\u29ad'), ("angmsdag", '\u29ae'),
   ("angmsdah", '\u29af'), ("bemptyv", '\u29b0'), ("demptyv", '\u29b1'), ("cemptyv", '\u29b2'),
   ("raemptyv", '\u29b3'), ("laemptyv", '\u29b4'), ("ohbar", '\u29b5'), ("omid", '\u29b6'),
   ("opar", '\u29b7'), ("operp", '\u29b9'), ("olcross", '\u29bb'), ("odsold", '\u29bc'),
   ("olcir", '\u29be'), ("ofcir", '\u29bf'), ("olt", '\u29c0'), ("ogt", '\u29c1'),
   ("cirscir", '\u29c2'), ("cirE", '\u29c3'), ("solb", '\u29c4'), ("bsolb", '\u29c5'),
   ("boxbox", '\u29c9'), ("trisb", '\u29cd'), ("rtriltri", '\u29ce'), ("LeftTriangleBar", '\u29cf'),
   ("RightTriangleBar", '\u29d0'), ("iinfin", '\u29dc'), ("infintie", '\u29dd'),
   ("nvinfin", '\u29de'), ("eparsl", '\u29e3'), ("smeparsl", '\u29e4'), ("eqvparsl", '\u29e5'),
   ("blacklozenge", '\u29eb'), ("lozf", '\u29eb'), ("RuleDelayed", '\u29f4'), ("dsol", '\u29f6'),
   ("bigodot", '\u2a00'), ("xodot", '\u2a00'), ("bigoplus", '\u2a01'), ("xoplus", '\u2a01'),
   ("bigotimes", '\u2a02'), ("xotime", '\u2a02'), ("biguplus", '\u2a04'), ("xuplus", '\u2a04'),
   ("bigsqcup", '\u2a06'), ("xsqcup", '\u2a06'), ("iiiint", '\u2a0c'), ("qint", '\u2a0c'),
   ("fpartint", '\u2a0d'), ("cirfnint", '\u2a10'), ("awint", '\u2a11'), ("rppolint", '\u2a12'),
   ("scpolint", '\u2a13'), ("npolint", '\u2a14'), ("pointint", '\u2a15'), ("quatint", '\u2a16'),
   ("intlarhk", '\u2a17'), ("pluscir", '\u2a22'), ("plusacir", '\u2a23'), ("simplus", '\u2a24'),
   ("plusdu", '\u2a25'), ("plussim", '\u2a26'), ("plustwo", '\u2a27'), ("mcomma", '\u2a29'),
   ("minusdu", '\u2a2a'), ("loplus", '\u2a2d'), ("roplus", '\u2a2e'), ("Cross", '\u2a2f'),
   ("timesd", '\u2a30'), ("timesbar", '\u2a31'), ("smashp", '\u2a33'), ("lotimes", '\u2a34'),
   ("rotimes", '\u2a35'), ("otimesas", '\u2a36'), ("Otimes", '\u2a37'), ("odiv", '\u2a38'),
   ("triplus", '\u2a39'), ("triminus", '\u2a3a'), ("tritime", '\u2a3b'), ("intprod", '\u2a3c'),
   ("iprod", '\u2a3c'), ("amalg", '\u2a3f'), ("capdot", '\u2a40'), ("ncup", '\u2a42'),
   ("ncap", '\u2a43'), ("capand", '\u2a44'), ("cupor", '\u2a45'), ("cupcap", '\u2a46'),
   ("capcup", '\u2a47'), ("cupbrcap", '\u2a48'), ("capbrcup", '\u2a49'), ("cupcup", '\u2a4a'),
   ("capcap", '\u2a4b'), ("ccups", '\u2a4c'), ("ccaps", '\u2a4d'), ("ccupssm", '\u2a50'),
   ("And", '\u2a53'), ("Or", '\u2a54'), ("andand", '\u2a55'), ("oror", '\u2a56'),
   ("orslope", '\u2a57'), ("andslope", '\u2a58'), ("andv", '\u2a5a'), ("orv", '\u2a5b'),
   ("andd", '\u2a5c'), ("ord", '\u2a5d'), ("wedbar", '\u2a5f'), ("sdote", '\u2a66'),
   ("simdot", '\u2a6a'), ("congdot", '\u2a6d'), ("easter", '\u2a6e'), ("apacir", '\u2a6f'),
   ("apE", '\u2a70'), ("eplus", '\u2a71'), ("pluse", '\u2a72'), ("Esim", '\u2a73'),
   ("Colone", '\u2a74'), ("Equal", '\u2a75'), ("ddotseq", '\u2a77'), ("eDDot", '\u2a77'),
   ("equivDD", '\u2a78'), ("ltcir", '\u2a79'), ("gtcir", '\u2a7a'), ("ltquest", '\u2a7b'),
   ("gtquest", '\u2a7c'), ("LessSlantEqual", '\u2a7d'), ("leqslant", '\u2a7d'), ("les", '\u2a7d'),
   ("GreaterSlantEqual", '\u2a7e'), ("geqslant", '\u2a7e'), ("ges", '\u2a7e'), ("lesdot", '\u2a7f'),
   ("gesdot", '\u2a80'), ("lesdoto", '\u2a81'), ("gesdoto", '\u2a82'), ("lesdotor", '\u2a83'),
   ("gesdotol", '\u2a84'), ("lap", '\u2a85'), ("lessapprox", '\u2a85'), ("gap", '\u2a86'),
   ("gtrapprox", '\u2a86'), ("lne", '\u2a87'), ("lneq", '\u2a87'), ("gne", '\u2a88'),
   ("gneq", '\u2a88'), ("lnap", '\u2a89'), ("lnapprox", '\u2a89'), ("gnap", '\u2a8a'),
   ("gnapprox", '\u2a8a'), ("lEg", '\u2a8b'), ("lesseqqgtr", '\u2a8b'), ("gEl", '\u2a8c'),
   ("gtreqqless", '\u2a8c'), ("lsime", '\u2a8d'), ("gsime", '\u2a8e'), ("lsimg", '\u2a8f'),
   ("gsiml", '\u2a90'), ("lgE", '\u2a91'), ("glE", '\u2a92'), ("lesges", '\u2a93'),
   ("gesles", '\u2a94'), ("els", '\u2a95'), ("eqslantless", '\u2a95'), ("egs", '\u2a96'),
   ("eqslantgtr", '\u2a96'), ("elsdot", '\u2a97'), ("egsdot", '\u2a98'), ("el", '\u2a99'),
   ("eg", '\u2a9a'), ("siml", '\u2a9d'), ("simg", '\u2a9e'), ("simlE", '\u2a9f'),
   ("simgE", '\u2aa0'), ("LessLess", '\u2aa1'), ("GreaterGreater", '\u2aa2'), ("glj", '\u2aa4'),
   ("gla", '\u2aa5'), ("ltcc", '\u2aa6'), ("gtcc", '\u2aa7'), ("lescc", '\u2aa8'),
   ("gescc", '\u2aa9'), ("smt", '\u2aaa'), ("lat", '\u2aab'), ("smte", '\u2aac'),
   ("late", '\u2aad'), ("bumpE", '\u2aae'), ("PrecedesEqual", '\u2aaf'), ("pre", '\u2aaf'),
   ("preceq", '\u2aaf'), ("SucceedsEqual", '\u2ab0'), ("sce", '\u2ab0'), ("succeq", '\u2ab0'),
   ("prE", '\u2ab3'), ("scE", '\u2ab4'), ("precneqq", '\u2ab5'), ("prnE", '\u2ab5'),
   ("scnE", '\u2ab6'), ("succneqq", '\u2ab6'), ("prap", '\u2ab7'), ("precapprox", '\u2ab7'),
   ("scap", '\u2ab8'), ("succapprox", '\u2ab8'), ("precnapprox", '\u2ab9'), ("prnap", '\u2ab9'),
   ("scnap", '\u2aba'), ("succnapprox", '\u2aba'), ("Pr", '\u2abb'), ("Sc", '\u2abc'),
   ("subdot", '\u2abd'), ("supdot", '\u2abe'), ("subplus", '\u2abf'), ("supplus", '\u2ac0'),
   ("submult", '\u2ac1'), ("supmult", '\u2ac2'), ("subedot", '\u2ac3'), ("supedot", '\u2ac4'),
   ("subE", '\u2ac5'), ("subseteqq", '\u2ac5'), ("supE", '\u2ac6'), ("supseteqq", '\u2ac6'),
   ("subsim", '\u2ac7'), ("supsim", '\u2ac8'), ("subnE", '\u2acb'), ("subsetneqq", '\u2acb'),
   ("supnE", '\u2acc'), ("supsetneqq", '\u2acc'), ("csub", '\u2acf'), ("csup", '\u2ad0'),
   ("csube", '\u2ad1'), ("csupe", '\u2ad2'), ("subsup", '\u2ad3'), ("supsub", '\u2ad4'),
   ("subsub", '\u2ad5'), ("supsup", '\u2ad6'), ("suphsub", '\u2ad7'), ("supdsub", '\u2ad8'),
   ("forkv", '\u2ad9'), ("topfork", '\u2ada'), ("mlcp", '\u2adb'), ("Dashv", '\u2ae4'),
   ("DoubleLeftTee", '\u2ae4'), ("Vdashl", '\u2ae6'), ("Barv", '\u2ae7'), ("vBar", '\u2ae8'),
   ("vBarv", '\u2ae9'), ("Vbar", '\u2aeb'), ("Not", '\u2aec'), ("bNot", '\u2aed'),
   ("rnmid", '\u2aee'), ("cirmid", '\u2aef'), ("midcir", '\u2af0'), ("topcir", '\u2af1'),
   ("nhpar", '\u2af2'), ("parsim", '\u2af3'), ("parsl", '\u2afd')]

/-- The names of ligatures. -/
def ligatureNames : List (String × Char) :=
  [("fflig", '\ufb00'), ("filig", '\ufb01'), ("fllig", '\ufb02'), ("ffilig", '\ufb03'),
   ("ffllig", '\ufb04')]

/-- The names of the script, black-letter and double-struck letters, which have numbers above
`0xffff`. -/
def mathematicalLetterNames : List (String × Nat) :=
  [("Ascr", 0x1d49c), ("Cscr", 0x1d49e), ("Dscr", 0x1d49f), ("Gscr", 0x1d4a2), ("Jscr", 0x1d4a5),
   ("Kscr", 0x1d4a6), ("Nscr", 0x1d4a9), ("Oscr", 0x1d4aa), ("Pscr", 0x1d4ab), ("Qscr", 0x1d4ac),
   ("Sscr", 0x1d4ae), ("Tscr", 0x1d4af), ("Uscr", 0x1d4b0), ("Vscr", 0x1d4b1), ("Wscr", 0x1d4b2),
   ("Xscr", 0x1d4b3), ("Yscr", 0x1d4b4), ("Zscr", 0x1d4b5), ("ascr", 0x1d4b6), ("bscr", 0x1d4b7),
   ("cscr", 0x1d4b8), ("dscr", 0x1d4b9), ("fscr", 0x1d4bb), ("hscr", 0x1d4bd), ("iscr", 0x1d4be),
   ("jscr", 0x1d4bf), ("kscr", 0x1d4c0), ("lscr", 0x1d4c1), ("mscr", 0x1d4c2), ("nscr", 0x1d4c3),
   ("pscr", 0x1d4c5), ("qscr", 0x1d4c6), ("rscr", 0x1d4c7), ("sscr", 0x1d4c8), ("tscr", 0x1d4c9),
   ("uscr", 0x1d4ca), ("vscr", 0x1d4cb), ("wscr", 0x1d4cc), ("xscr", 0x1d4cd), ("yscr", 0x1d4ce),
   ("zscr", 0x1d4cf), ("Afr", 0x1d504), ("Bfr", 0x1d505), ("Dfr", 0x1d507), ("Efr", 0x1d508),
   ("Ffr", 0x1d509), ("Gfr", 0x1d50a), ("Jfr", 0x1d50d), ("Kfr", 0x1d50e), ("Lfr", 0x1d50f),
   ("Mfr", 0x1d510), ("Nfr", 0x1d511), ("Ofr", 0x1d512), ("Pfr", 0x1d513), ("Qfr", 0x1d514),
   ("Sfr", 0x1d516), ("Tfr", 0x1d517), ("Ufr", 0x1d518), ("Vfr", 0x1d519), ("Wfr", 0x1d51a),
   ("Xfr", 0x1d51b), ("Yfr", 0x1d51c), ("afr", 0x1d51e), ("bfr", 0x1d51f), ("cfr", 0x1d520),
   ("dfr", 0x1d521), ("efr", 0x1d522), ("ffr", 0x1d523), ("gfr", 0x1d524), ("hfr", 0x1d525),
   ("ifr", 0x1d526), ("jfr", 0x1d527), ("kfr", 0x1d528), ("lfr", 0x1d529), ("mfr", 0x1d52a),
   ("nfr", 0x1d52b), ("ofr", 0x1d52c), ("pfr", 0x1d52d), ("qfr", 0x1d52e), ("rfr", 0x1d52f),
   ("sfr", 0x1d530), ("tfr", 0x1d531), ("ufr", 0x1d532), ("vfr", 0x1d533), ("wfr", 0x1d534),
   ("xfr", 0x1d535), ("yfr", 0x1d536), ("zfr", 0x1d537), ("Aopf", 0x1d538), ("Bopf", 0x1d539),
   ("Dopf", 0x1d53b), ("Eopf", 0x1d53c), ("Fopf", 0x1d53d), ("Gopf", 0x1d53e), ("Iopf", 0x1d540),
   ("Jopf", 0x1d541), ("Kopf", 0x1d542), ("Lopf", 0x1d543), ("Mopf", 0x1d544), ("Oopf", 0x1d546),
   ("Sopf", 0x1d54a), ("Topf", 0x1d54b), ("Uopf", 0x1d54c), ("Vopf", 0x1d54d), ("Wopf", 0x1d54e),
   ("Xopf", 0x1d54f), ("Yopf", 0x1d550), ("aopf", 0x1d552), ("bopf", 0x1d553), ("copf", 0x1d554),
   ("dopf", 0x1d555), ("eopf", 0x1d556), ("fopf", 0x1d557), ("gopf", 0x1d558), ("hopf", 0x1d559),
   ("iopf", 0x1d55a), ("jopf", 0x1d55b), ("kopf", 0x1d55c), ("lopf", 0x1d55d), ("mopf", 0x1d55e),
   ("nopf", 0x1d55f), ("oopf", 0x1d560), ("popf", 0x1d561), ("qopf", 0x1d562), ("ropf", 0x1d563),
   ("sopf", 0x1d564), ("topf", 0x1d565), ("uopf", 0x1d566), ("vopf", 0x1d567), ("wopf", 0x1d568),
   ("xopf", 0x1d569), ("yopf", 0x1d56a), ("zopf", 0x1d56b)]

/-- All names. -/
def names : List (String × Char) :=
  markupNames ++ latinNames ++ greekNames ++ signNames ++ asciiNames ++ furtherLatinNames ++
    markNames ++ furtherGreekNames ++ cyrillicNames ++ punctuationNames ++ letterlikeNames ++
    arrowNames ++ operatorNames ++ technicalNames ++ shapeNames ++ longArrowNames ++
    compoundNames ++ ligatureNames ++
    mathematicalLetterNames.map fun (name, number) => (name, Char.ofNat number)

end SchemaScope.Reference
