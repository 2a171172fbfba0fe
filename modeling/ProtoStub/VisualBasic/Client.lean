import ProtoStub.Profile
import ProtoStub.VisualBasic.Class
import ProtoStub.Route

/-!
# Clients

A service becomes a client class with a group of functions per procedure that is no stream. The
class holds the connection and the request helper itself, or is built from a utility that holds
them. What the classes look like depends on the profile.
-/

namespace ProtoStub.VisualBasic

/-- A procedure as its client shows it. -/
structure ClientMethod where
  name : String
  request : String
  response : String
  route : String
  deriving Repr, DecidableEq, Inhabited

/-- A client class before it is known where its request helper lives. -/
structure Client where
  name : String
  methods : List ClientMethod
  deriving Repr, DecidableEq, Inhabited

/-- The name of a procedure's functions. Asynchronous ones have a suffix, so that they are no
reserved words. -/
def methodName (profile : Profile) (name : String) : String :=
  match profile with
  | .async => name ++ "Async"
  | .sync => escape name

/-- The client methods of procedures, and whether their types need the JSON object model. -/
def clientMethods (p : Program) (file : Nat) (profile : Profile) (baseName : String) :
    List Program.Method → Except Error (List ClientMethod × Bool)
  | [] => .ok ([], false)
  | m :: rest =>
    match typeName p file none m.input with
    | .error e => .error e
    | .ok request =>
      match typeName p file none m.output with
      | .error e => .error e
      | .ok response =>
        match clientMethods p file profile baseName rest with
        | .error e => .error e
        | .ok (methods, linq) =>
          .ok (⟨methodName profile m.name, request.text, response.text, route baseName m.name⟩ ::
            methods, request.linq || response.linq || linq)

/-- The client of a service, and whether its types need the JSON object model. -/
def clientOf (p : Program) (file : Nat) (profile : Profile) (s : Program.Service) :
    Except Error (Client × Bool) :=
  match clientMethods p file profile (p.file file).baseName s.unaryMethods with
  | .error e => .error e
  | .ok (methods, linq) => .ok (⟨escape (s.name ++ "Client"), methods⟩, linq)

/-! ## Members -/

/-- The state of a class that holds the connection itself. -/
def stateLines : Profile → List String
  | .async => [
    "        Private ReadOnly _http As HttpClient",
    "        Private ReadOnly _baseUrl As String",
    "",
    "        Public Sub New(http As HttpClient, baseUrl As String)",
    "            If http Is Nothing Then Throw New ArgumentNullException(NameOf(http))",
    "            If String.IsNullOrWhiteSpace(baseUrl) Then Throw New " ++
      "ArgumentException(\"baseUrl cannot be null or empty\", NameOf(baseUrl))",
    "            _http = http",
    "            _baseUrl = baseUrl.TrimEnd(\"/\"c)",
    "        End Sub"]
  | .sync => [
    "        Private ReadOnly _baseUrl As String",
    "",
    "        Public Sub New(baseUrl As String)",
    "            If String.IsNullOrWhiteSpace(baseUrl) Then Throw New " ++
      "ArgumentException(\"baseUrl cannot be null or empty\", \"baseUrl\")",
    "            _baseUrl = baseUrl.TrimEnd(\"/\"c)",
    "            Timeout = TimeSpan.FromSeconds(100)",
    "        End Sub",
    "",
    "        Public Property Timeout As TimeSpan"]

/-- The state of a class that is built from the utility `utility`. -/
def utilityStateLines (profile : Profile) (utility : String) : List String :=
  let http := match profile with
    | .async => "NameOf(http)"
    | .sync => "\"http\""
  ["        Private ReadOnly _http As " ++ utility,
    "",
    "        Public Sub New(http As " ++ utility ++ ")",
    "            If http Is Nothing Then Throw New ArgumentNullException(" ++ http ++ ")",
    "            _http = http",
    "        End Sub"]

/-- The request helper of asynchronous clients. -/
def asyncHelperLines (access : String) : List String := [
    "        " ++ access ++ " Async Function PostJsonAsync(Of TResponse)(path As String, " ++
      "request As Object, cancellationToken As CancellationToken) As Task(Of TResponse)",
    "            Dim body As String = JsonConvert.SerializeObject(request)",
    "            Using httpRequest As New HttpRequestMessage(HttpMethod.Post, _baseUrl & " ++
      "\"/\" & path)",
    "                httpRequest.Content = New StringContent(body, Encoding.UTF8, " ++
      "\"application/json\")",
    "                Using response As HttpResponseMessage = Await " ++
      "_http.SendAsync(httpRequest, cancellationToken).ConfigureAwait(False)",
    "                    Dim responseBody As String = Await " ++
      "response.Content.ReadAsStringAsync().ConfigureAwait(False)",
    "                    If Not response.IsSuccessStatusCode Then",
    "                        Throw New HttpRequestException(String.Format(\"POST \x7b0\x7d " ++
      "failed with status \x7b1\x7d (\x7b2\x7d): \x7b3\x7d\", path, " ++
      "CInt(response.StatusCode), response.ReasonPhrase, responseBody))",
    "                    End If",
    "                    If String.IsNullOrWhiteSpace(responseBody) Then",
    "                        Throw New HttpRequestException(String.Format(\"POST \x7b0\x7d " ++
      "returned an empty body with status \x7b1\x7d\", path, CInt(response.StatusCode)))",
    "                    End If",
    "                    Return JsonConvert.DeserializeObject(Of TResponse)(responseBody)",
    "                End Using",
    "            End Using",
    "        End Function"]

/-- The request helper of blocking clients. -/
def syncHelperLines (access : String) : List String := [
    "        " ++ access ++ " Function PostJson(Of TResponse)(path As String, " ++
      "request As Object, timeout As TimeSpan) As TResponse",
    "            Dim payload As Byte() = " ++
      "Encoding.UTF8.GetBytes(JsonConvert.SerializeObject(request))",
    "            Dim httpRequest As HttpWebRequest = CType(WebRequest.Create(_baseUrl & " ++
      "\"/\" & path), HttpWebRequest)",
    "            httpRequest.Method = \"POST\"",
    "            httpRequest.ContentType = \"application/json; charset=utf-8\"",
    "            httpRequest.Accept = \"application/json\"",
    "            httpRequest.ContentLength = payload.Length",
    "            httpRequest.Timeout = CInt(timeout.TotalMilliseconds)",
    "            httpRequest.ReadWriteTimeout = CInt(timeout.TotalMilliseconds)",
    "            Using stream As Stream = httpRequest.GetRequestStream()",
    "                stream.Write(payload, 0, payload.Length)",
    "            End Using",
    "",
    "            Dim response As HttpWebResponse = Nothing",
    "            Try",
    "                response = CType(httpRequest.GetResponse(), HttpWebResponse)",
    "            Catch ex As WebException When ex.Response IsNot Nothing",
    "                Using errorResponse As HttpWebResponse = CType(ex.Response, " ++
      "HttpWebResponse)",
    "                    Dim errorBody As String = ReadBody(errorResponse)",
    "                    Throw New WebException(String.Format(\"POST \x7b0\x7d failed with " ++
      "status \x7b1\x7d (\x7b2\x7d): \x7b3\x7d\", path, CInt(errorResponse.StatusCode), " ++
      "errorResponse.StatusDescription, errorBody), ex, ex.Status, Nothing)",
    "                End Using",
    "            End Try",
    "",
    "            Using response",
    "                Dim responseBody As String = ReadBody(response)",
    "                If String.IsNullOrWhiteSpace(responseBody) Then",
    "                    Throw New WebException(String.Format(\"POST \x7b0\x7d returned an " ++
      "empty body with status \x7b1\x7d\", path, CInt(response.StatusCode)))",
    "                End If",
    "                Return JsonConvert.DeserializeObject(Of TResponse)(responseBody)",
    "            End Using",
    "        End Function",
    "",
    "        Private Shared Function ReadBody(response As HttpWebResponse) As String",
    "            Using reader As New StreamReader(response.GetResponseStream(), Encoding.UTF8)",
    "                Return reader.ReadToEnd()",
    "            End Using",
    "        End Function"]

/-- The member that posts a request and reads the response, with the given access. -/
def helperLines : Profile → (access : String) → List String
  | .async => asyncHelperLines
  | .sync => syncHelperLines

/-- The request helper as text. -/
def helperText (profile : Profile) (access : String) : String :=
  "\n".intercalate (helperLines profile access)

/-- The functions of a procedure. Calls go through `call`. -/
def methodLines (profile : Profile) (call : String) (m : ClientMethod) : List String :=
  let request := "(request As " ++ m.request
  match profile with
  | .async =>
    let result := " As Task(Of " ++ m.response ++ ")"
    let post := call ++ "PostJsonAsync(Of " ++ m.response ++ ")(\"" ++ m.route ++ "\", request, "
    let refuseNothing :=
      "            If request Is Nothing Then Throw New ArgumentNullException(NameOf(request))"
    ["",
      "        Public Function " ++ m.name ++ request ++ ")" ++ result,
      "            Return " ++ m.name ++ "(request, CancellationToken.None)",
      "        End Function",
      "",
      "        Public Function " ++ m.name ++ request ++
        ", cancellationToken As CancellationToken)" ++ result,
      refuseNothing,
      "            Return " ++ post ++ "cancellationToken)",
      "        End Function",
      "",
      "        Public Async Function " ++ m.name ++ request ++
        ", cancellationToken As CancellationToken, timeout As TimeSpan)" ++ result,
      refuseNothing,
      "            Using cts As CancellationTokenSource = " ++
        "CancellationTokenSource.CreateLinkedTokenSource(cancellationToken)",
      "                cts.CancelAfter(timeout)",
      "                Return Await " ++ post ++ "cts.Token).ConfigureAwait(False)",
      "            End Using",
      "        End Function"]
  | .sync =>
    let result := " As " ++ m.response
    ["",
      "        Public Function " ++ m.name ++ request ++ ")" ++ result,
      "            Return " ++ m.name ++ "(request, " ++ call ++ "Timeout)",
      "        End Function",
      "",
      "        Public Function " ++ m.name ++ request ++ ", timeout As TimeSpan)" ++ result,
      "            If request Is Nothing Then Throw New ArgumentNullException(\"request\")",
      "            Return " ++ call ++ "PostJson(Of " ++ m.response ++ ")(\"" ++ m.route ++
        "\", request, timeout)",
      "        End Function"]

/-- Where a client finds the request helper. -/
inductive HelperPlace where
  /-- In the class itself; the text is the helper. -/
  | inline (helper : String)
  /-- In a utility of the given type. -/
  | utility (type : String)
  deriving Repr, DecidableEq, Inhabited

/-- A client class. -/
def clientLines (profile : Profile) (place : HelperPlace) (c : Client) : List String :=
  let head := "    Public Class " ++ c.name
  match place with
  | .inline helper =>
    head :: stateLines profile ++ c.methods.flatMap (methodLines profile "") ++
      ["", helper, "    End Class"]
  | .utility type =>
    head :: utilityStateLines profile type ++ c.methods.flatMap (methodLines profile "_http.") ++
      ["    End Class"]

end ProtoStub.VisualBasic
