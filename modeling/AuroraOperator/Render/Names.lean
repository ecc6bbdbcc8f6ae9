/-
# Label keys and object names

The constants of `internal/render/resources.go` and `safeDNSLabel`, through which every name
and every cluster label of a rendered object goes.
-/
import AuroraOperator.Sha1
import AuroraOperator.Kube

namespace AuroraOperator

namespace Render

/-! ## 1. Keys and values -/

def labelManagedBy : String := "pgbouncer-aurora.io/managed-by"
def labelCluster : String := "pgbouncer-aurora.io/cluster"
def labelInstance : String := "pgbouncer-aurora.io/instance"
def labelRole : String := "pgbouncer-aurora.io/role"
def labelServiceRole : String := "pgbouncer-aurora.io/service-role"
def labelWriter : String := "pgbouncer-aurora.io/member-writer"
def labelReader : String := "pgbouncer-aurora.io/member-reader"
def labelDbiResourceID : String := "pgbouncer-aurora.io/dbi-resource-id"
def labelAppName : String := "app.kubernetes.io/name"
def labelAppComponent : String := "app.kubernetes.io/component"
def labelAppInstance : String := "app.kubernetes.io/instance"
def labelAppManagedBy : String := "app.kubernetes.io/managed-by"
def labelAppPartOf : String := "app.kubernetes.io/part-of"
def annotationClusterName : String := "pgbouncer-aurora.io/cluster-name"
def annotationConfigHash : String := "pgbouncer-aurora.io/config-hash"
def annotationAuthFileHash : String := "pgbouncer-aurora.io/auth-file-hash"
def annotationDbiResourceID : String := labelDbiResourceID
def restartedAtAnnotationKey : String := "pgbouncer-aurora.io/restarted-at"
def managedByValue : String := "pgbouncer-aurora-operator"
def appNameValue : String := "pgbouncer-aurora"
def appComponentValue : String := "pgbouncer"
def appPartOfValue : String := "pgbouncer-aurora"

/-! ## 2. DNS labels -/

def maxDNSLabelLength : Nat := 63
def nameHashLength : Nat := 10

/-- `unicode.ToLower`, as far as it can reach a character a DNS label allows. -/
def lowerChar (c : Char) : Char :=
  if c.toNat = 0x130 then 'i' else if c.toNat = 0x212a then 'k' else c.toLower

def allowedChar (c : Char) : Bool := ('a' ≤ c && c ≤ 'z') || ('0' ≤ c && c ≤ '9')

/-- The loop of `normalizeDNSLabel`: a run of characters that are not allowed becomes one
hyphen.  `lastDash` says that one was just written. -/
def hyphenate : Bool → List Char → List Char
  | _, [] => []
  | lastDash, c :: rest =>
    if allowedChar c then c :: hyphenate false rest
    else if lastDash then hyphenate true rest
    else '-' :: hyphenate true rest

def trimHyphensRight (s : List Char) : List Char := (s.reverse.dropWhile (· = '-')).reverse

def normalizeDNSLabel (value : List Char) : List Char :=
  let out := trimHyphensRight ((hyphenate false (value.map lowerChar)).dropWhile (· = '-'))
  if out = [] then ['x'] else out

/-- `safeDNSLabel`, over the digest it shortens long labels with. -/
def safeDNSLabelWith (digest : String → List Char) (parts : List String) : String :=
  let raw := joinStrings parts "-"
  let normalized := normalizeDNSLabel raw.toList
  if normalized.length ≤ maxDNSLabelLength then String.ofList normalized
  else
    let suffix := (digest raw).take nameHashLength
    let cut := trimHyphensRight (normalized.take (maxDNSLabelLength - nameHashLength - 1))
    let label := if cut = [] then ['x'] else cut
    String.ofList (label ++ '-' :: suffix)

def safeDNSLabel (parts : List String) : String := safeDNSLabelWith sha1Hex parts

def clusterLabelValue (clusterName : String) : String := safeDNSLabel [clusterName]

def instanceResourceName (clusterName instanceName : String) : String :=
  safeDNSLabel [clusterName, instanceName]

def roleServiceName (clusterName serviceName : String) : String :=
  safeDNSLabel [clusterName, serviceName]

end Render

end AuroraOperator
