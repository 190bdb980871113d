import SymbolView.Snapshot.Basic

/-!
# Questions as data

`Query` lists the questions that a session answers, `Answer` the forms of the answers, and
`Query.run` answers a question.
-/

set_option autoImplicit false

namespace SymbolView

/-- A question to a session. -/
inductive Query where
  | adapter (s : SymbolId)
  | origin (d : Declaration)
  | location (d : Declaration)
  | modifiers (d : Declaration)
  | docText (d : Declaration)
  | parent (d : Declaration)
  | ancestorOf (category : DeclarationCategory) (d : Declaration)
  | containingDeclaration (d : Declaration)
  | containingFile (d : Declaration)
  | declaredType (d : Declaration)
  | typeText (d : Declaration)
  | render (type : TypeTerm)
  | classifierOf (type : TypeTerm)
  | classifierDeclaration (type : TypeTerm)
  | classId (d : Declaration)
  | classOf (id : ClassId)
  | members (d : Declaration)
  | properties (d : Declaration)
  | functions (d : Declaration)
  | annotations (d : Declaration)
  | annotationsFor (target : UseSiteTarget) (d : Declaration)
  | annotationsForOption (target : Option UseSiteTarget) (d : Declaration)
  | useSiteAnnotations (d : Declaration)
  | resolvedAnnotations (d : Declaration)
  | snapshot (d : Declaration)

/-- An answer of a session. -/
inductive Answer where
  | declaration (d : Declaration)
  | declaration? (d : Option Declaration)
  | declarations (ds : List Declaration)
  | origin (origin : Origin)
  | location (location : Location)
  | modifiers (modifiers : List Modifier)
  | text (text : String)
  | text? (text : Option String)
  | type? (type : Option TypeTerm)
  | classifier? (classifier : Option Classifier)
  | classId? (id : Option ClassId)
  | annotations (annotations : List Annotations.Projected)
  | snapshot (snapshot : Snapshot)

/-- Answers a question. -/
def Query.run (host : Host) : Query → SessionM Answer
  | adapter s => .declaration <$> adapterFor host s
  | origin d => .origin <$> Session.origin host d
  | location d => .location <$> Session.location host d
  | modifiers d => .modifiers <$> Session.modifiers host d
  | docText d => .text? <$> Session.docText host d
  | parent d => .declaration? <$> Session.parent host d
  | ancestorOf category d => .declaration? <$> Session.ancestorOf host category d
  | containingDeclaration d => .declaration? <$> Session.containingDeclaration host d
  | containingFile d => .declaration? <$> Session.containingFile host d
  | declaredType d => .type? <$> Session.declaredType host d
  | typeText d => .text? <$> Session.typeText host d
  | render type => .text <$> Session.render type
  | classifierOf type => return .classifier? (host.classifierOf type)
  | classifierDeclaration type => .declaration? <$> Session.classifierDeclaration host type
  | classId d => .classId? <$> Session.classId host d
  | classOf id => .declaration? <$> Session.classOf host id
  | members d => .declarations <$> Session.members host d
  | properties d => .declarations <$> Session.properties host d
  | functions d => .declarations <$> Session.functions host d
  | annotations d => .annotations <$> Session.annotations host d
  | annotationsFor target d => .annotations <$> Session.annotationsFor host target d
  | annotationsForOption target d => .annotations <$> Session.annotationsForOption host target d
  | useSiteAnnotations d => .annotations <$> Session.useSiteAnnotations host d
  | resolvedAnnotations d => .annotations <$> Session.resolvedAnnotations host d
  | snapshot d => .snapshot <$> Session.snapshot host d

/-- How a question ended, and the session afterwards. -/
def Session.ask (session : Session) (host : Host) (q : Query) : Except Failure Answer × Session :=
  (q.run host).run.run session

end SymbolView
